import CompiledFrames.Proofs.Text.Utf8
import CompiledFrames.Text.HexBytes

/-!
# Hexadecimal text is read back

A number below 256 is written as two digits, filled up with zeros to the left. Neither digit is white
space, and each one takes up one byte of the text. So what is written of several bytes is cut again
where one byte ends and the next one begins.

## Main results

* `Numeral.toList_hexFilled`: the digits of a small number
* `HexBytes.decode_encode`: written bytes are read back
-/

namespace CompiledFrames

namespace Numeral

variable {n d e : Nat}

/-- A number that takes at most two digits, filled up with zeros. -/
theorem toList_hexFilled (width : Nat) (h : n < 256) :
    (hexFilled (width + 2) n).toList =
      List.replicate width '0' ++ [Nat.digitChar (n / 16), Nat.digitChar (n % 16)] := by
  unfold hexFilled
  rw [String.toList_ofList, Nat.toDigits_eq_if (by omega)]
  split_ifs with hsmall
  · have hdiv : n / 16 = 0 := by omega
    have hmod : n % 16 = n := by omega
    have hwidth : width + 2 - [Nat.digitChar n].length = width + 1 := rfl
    rw [hwidth, hdiv, hmod, List.replicate_succ', List.append_assoc]
    rfl
  · rw [Nat.toDigits_of_lt_base (by omega)]
    rfl

/-- A digit is read back. -/
theorem digit?_digitChar : ∀ d < 16, digit? 16 (Nat.digitChar d) = some d := by
  decide

theorem digits?_pair (hd : d < 16) (he : e < 16) :
    digits? 16 [Nat.digitChar d, Nat.digitChar e] = some (16 * d + e) := by
  simp only [digits?, continue?, digit?_digitChar d hd, digit?_digitChar e he, Nat.mul_zero,
    Nat.zero_add]

end Numeral

/-- Well-formed bytes are read as the text that they write. -/
theorem Utf8.decode?_encode (text : String) : decode? (encode text) = some text := by
  have hall : ∀ chars : List Char, (chars.map some).mapM id = some chars := by
    intro chars
    induction chars with
    | nil => rfl
    | cons c rest ih =>
      rw [List.map_cons, List.mapM_cons, ih]
      rfl
  rw [decode?, scan_encode, hall, Option.map_some, String.ofList_toList]

namespace HexBytes

/-- The byte of a digit in a text. -/
def digitByte (d : Nat) : UInt8 :=
  UInt8.ofNat (Nat.digitChar d).toNat

theorem utf8EncodeChar_digitChar :
    ∀ d < 16, String.utf8EncodeChar (Nat.digitChar d) = [digitByte d] := by
  decide

theorem isSpace_digitByte : ∀ d < 16, isSpace (digitByte d) = false := by
  decide

theorem digitChar_ne_plus : ∀ d < 16, Nat.digitChar d ≠ '+' := by
  decide

/-- Two digits are read as the byte that they write. -/
theorem decodePair?_digitByte {d e : Nat} (hd : d < 16) (he : e < 16) :
    decodePair? (digitByte d) (digitByte e) = some (UInt8.ofNat (16 * d + e)) := by
  have hbytes : [digitByte d, digitByte e] =
      Utf8.encode (String.ofList [Nat.digitChar d, Nat.digitChar e]) := by
    simp only [Utf8.encode, String.toList_ofList, List.flatMap_cons, List.flatMap_nil,
      utf8EncodeChar_digitChar d hd, utf8EncodeChar_digitChar e he]
    rfl
  have hread : Numeral.read? 16 256 (String.ofList [Nat.digitChar d, Nat.digitChar e]) =
      some (16 * d + e) := by
    unfold Numeral.read?
    rw [String.toList_ofList]
    split
    · next rest hplus => exact absurd (List.cons.inj hplus).1 (digitChar_ne_plus d hd)
    · dsimp only
      rw [Numeral.digits?_pair hd he, Option.filter_some, if_pos]
      exact decide_eq_true (by omega)
  unfold decodePair?
  rw [hbytes, Utf8.decode?_encode]
  simp only [Option.bind_eq_bind, Option.bind_some, hread, Option.map_some]

/-- The bytes of the text in which bytes are written. -/
theorem encode_eq (bytes : List UInt8) :
    Utf8.encode (encode bytes) =
      bytes.flatMap fun b => [digitByte (b.toNat / 16), digitByte (b.toNat % 16)] := by
  unfold Utf8.encode encode
  rw [String.toList_ofList, List.flatMap_assoc]
  refine congrArg (List.flatMap · bytes) (funext fun b => ?_)
  have hb : b.toNat < 256 := b.toNat_lt
  rw [Numeral.toList_hexFilled 0 hb]
  simp only [List.replicate_zero, List.nil_append, List.flatMap_cons, List.flatMap_nil,
    utf8EncodeChar_digitChar (b.toNat / 16) (by omega),
    utf8EncodeChar_digitChar (b.toNat % 16) (by omega)]
  rfl

theorem decodePairs_digits (bytes : List UInt8) :
    decodePairs (bytes.flatMap fun b => [digitByte (b.toNat / 16), digitByte (b.toNat % 16)]) =
      .ok bytes := by
  induction bytes with
  | nil => rfl
  | cons b rest ih =>
    have hb : b.toNat < 256 := b.toNat_lt
    have hpair : decodePair? (digitByte (b.toNat / 16)) (digitByte (b.toNat % 16)) = some b := by
      rw [decodePair?_digitByte (by omega) (by omega), Nat.div_add_mod, UInt8.ofNat_toNat]
    rw [List.flatMap_cons, List.cons_append, List.cons_append, List.nil_append, decodePairs, hpair, ih]
    rfl

/-- **Written bytes are read back.** -/
theorem decode_encode (bytes : List UInt8) : decode (encode bytes) = .ok bytes := by
  have hfilter : (Utf8.encode (encode bytes)).filter (fun b => !isSpace b) =
      Utf8.encode (encode bytes) := by
    rw [encode_eq, List.filter_eq_self]
    intro digit hdigit
    obtain ⟨b, -, hb⟩ := List.mem_flatMap.mp hdigit
    have hlt : b.toNat < 256 := b.toNat_lt
    simp only [List.mem_cons, List.not_mem_nil, or_false] at hb
    rcases hb with rfl | rfl
    · rw [isSpace_digitByte _ (by omega)]
      rfl
    · rw [isSpace_digitByte _ (by omega)]
      rfl
  have hlength : (Utf8.encode (encode bytes)).length % 2 = 0 := by
    rw [encode_eq, List.length_flatMap]
    simp [List.map_const']
  unfold decode
  rw [hfilter, if_neg (not_not_intro hlength), encode_eq, decodePairs_digits]

end HexBytes

end CompiledFrames
