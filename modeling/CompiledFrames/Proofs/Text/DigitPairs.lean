import CompiledFrames.Error
import CompiledFrames.Proofs.Text.Hexadecimal

/-!
# Which texts are read as bytes

White space is left out of a text, and what is left is read pair by pair. The cut into pairs is made
in the bytes of the text, so that a pair may hold a part of a character; no such pair is read. A pair
is read as a number is, which lets a plus sign stand for its first digit. So the texts that are read
are those of digit pairs and, beyond what is ever written, those with signed digits among the pairs.

The grammar is said over the characters of a text and knows nothing of the reader.

## Main definitions

* `HexBytes.compact`: the characters of a text that are not white space
* `HexBytes.Digit`: a character is a hexadecimal digit with some value
* `HexBytes.DigitPair`, `HexBytes.SignedDigit`: the two kinds of pairs that are read
* `HexBytes.Paired`: characters are pairs of some kind, one behind the other

## Main results

* `HexBytes.decodePair?_eq_some_iff`: which two bytes are read, and as what
* `HexBytes.decode_eq_ok_iff`: reading accepts just the texts of pairs
* `HexBytes.decode_accepts`: what is read of a text with plus signs and of one without
-/

namespace CompiledFrames

/-! ## Two bytes as text -/

namespace Utf8

variable {a b : UInt8} {text : String}

/-- Of parts that may be ill formed, all are characters. -/
theorem mapM_id_eq_some_iff {parts : List (Option Char)} {chars : List Char} :
    parts.mapM id = some chars ↔ parts = chars.map some := by
  induction parts generalizing chars with
  | nil =>
    rw [List.mapM_nil, List.nil_eq, List.map_eq_nil_iff]
    exact ⟨fun h => (Option.some.inj h).symm, fun h => congrArg some h.symm⟩
  | cons part parts ih =>
    rw [List.mapM_cons]
    simp only [Option.bind_eq_bind, Option.bind_eq_some_iff, id_eq, ih]
    constructor
    · rintro ⟨c, rfl, rest, rfl, h⟩
      obtain rfl := Option.some.inj h
      rfl
    · intro h
      cases chars with
      | nil => cases h
      | cons c rest =>
        obtain ⟨rfl, rfl⟩ := List.cons.inj h
        exact ⟨c, rfl, rest, rfl, rfl⟩

/-- Bytes are read as a text just when they are cut into its characters. -/
theorem decode?_eq_some_iff {bytes : List UInt8} :
    decode? bytes = some text ↔ scan bytes = text.toList.map some := by
  unfold decode?
  rw [Option.map_eq_some_iff]
  constructor
  · rintro ⟨chars, hchars, rfl⟩
    rw [String.toList_ofList]
    exact mapM_id_eq_some_iff.mp hchars
  · intro h
    exact ⟨text.toList, mapM_id_eq_some_iff.mpr h, String.ofList_toList⟩

theorem lead_ascii (h : b < 0x80) : lead b = ([some (Char.ofNat b.toNat)], .start) := by
  have hlead := lead_one (UInt8.lt_iff_toNat_lt.mp h)
  rwa [UInt8.ofNat_toNat] at hlead

/-- A byte outside ASCII is no character by itself. -/
theorem lead_of_le (h : 0x80 ≤ b) :
    lead b = ([none], .start) ∨
      (∃ n, 2 ≤ n ∧ n < 0x20 ∧ lead b = ([], .inside 1 0x80 0xbf n)) ∨
      ∃ missing low high code, lead b = ([], .inside (missing + 2) low high code) := by
  rw [UInt8.le_iff_toNat_le] at h
  by_cases htwo : 0xc2 ≤ b.toNat ∧ b.toNat < 0xe0
  · have hlead := @lead_two (b.toNat - 0xc0) (by omega) (by omega)
    rw [Nat.sub_add_cancel (by omega), UInt8.ofNat_toNat] at hlead
    exact .inr (.inl ⟨b.toNat - 0xc0, by omega, by omega, hlead⟩)
  · have hascii : ¬ b < 0x80 := by
      rw [UInt8.lt_iff_toNat_lt]
      exact Nat.not_lt.mpr h
    generalize hlead : lead b = result
    unfold lead at hlead
    rw [if_neg hascii] at hlead
    split_ifs at hlead with hsmall hmiddle
    · exact .inl hlead.symm
    · rw [UInt8.lt_iff_toNat_lt] at hsmall hmiddle
      exact absurd ⟨Nat.not_lt.mp hsmall, hmiddle⟩ htwo
    all_goals first
      | exact .inl hlead.symm
      | exact .inr (.inr ⟨_, _, _, _, hlead.symm⟩)

/-- Below the surrogates each number is that of a character. -/
theorem toNat_ofNat_of_lt {n : Nat} (h : n < 0xd800) : (Char.ofNat n).toNat = n := by
  unfold Char.ofNat
  rw [dif_pos (.inl h)]
  rfl

/-- Bytes that are cut into characters are read as these. -/
theorem toList_of_scan {bytes : List UInt8} {chars : List Char} (h : decode? bytes = some text)
    (hscan : scan bytes = chars.map some) : text.toList = chars := by
  rw [decode?_eq_some_iff, hscan] at h
  exact ((List.map_inj_right fun _ _ => Option.some.inj).mp h).symm

theorem none_notMem_scan {bytes : List UInt8} (h : decode? bytes = some text) :
    none ∉ scan bytes := by
  rw [decode?_eq_some_iff.mp h]
  simp

/-- The second of two bytes is looked at after what the first one has left open. -/
theorem scan_pair (a b : UInt8) :
    scan [a, b] = (lead a).1 ++ ((step (lead a).2 b).1 ++ scanFrom (step (lead a).2 b).2 []) := by
  rw [scan, scanFrom]
  change (lead a).1 ++ scanFrom (lead a).2 [b] = _
  cases (lead a).2 <;> rw [scanFrom]

/-- What is open at the end is ill formed. -/
theorem scanFrom_inside_nil (missing : Nat) (low high : UInt8) (code : Nat) :
    scanFrom (.inside missing low high code) [] = [none] := by
  rw [scanFrom]

theorem scan_ascii (ha : a < 0x80) (hb : b < 0x80) :
    scan [a, b] = [Char.ofNat a.toNat, Char.ofNat b.toNat].map some := by
  rw [scan_pair, lead_ascii ha, step, lead_ascii hb]
  rfl

/-- **Two bytes as text.** If they are well formed, they write two ASCII characters or a single one
outside ASCII. -/
theorem chars_of_decode?_pair (h : decode? [a, b] = some text) :
    (a < 0x80 ∧ b < 0x80 ∧ text.toList = [Char.ofNat a.toNat, Char.ofNat b.toNat]) ∨
      ∃ c, 0x80 ≤ c.toNat ∧ text.toList = [c] := by
  have hformed := none_notMem_scan h
  rw [scan_pair] at hformed
  by_cases ha : a < 0x80
  · by_cases hb : b < 0x80
    · exact .inl ⟨ha, hb, toList_of_scan h (scan_ascii ha hb)⟩
    · rw [lead_ascii ha, step] at hformed
      rcases lead_of_le (UInt8.not_lt.mp hb) with hlead | ⟨n, -, -, hlead⟩ | ⟨_, _, _, _, hlead⟩ <;>
        simp [hlead, scanFrom_inside_nil] at hformed
  · rcases lead_of_le (UInt8.not_lt.mp ha) with hlead | ⟨n, hlow, hhigh, hlead⟩ |
      ⟨missing, low, high, code, hlead⟩
    · simp [hlead] at hformed
    · rw [hlead, step] at hformed
      by_cases hin : 0x80 ≤ b ∧ b ≤ 0xbf
      · refine .inr ⟨Char.ofNat (n * 64 + (b &&& 0x3f).toNat), ?_, toList_of_scan h ?_⟩
        · have hbits : (b &&& 0x3f).toNat ≤ 0x3f := by
            rw [UInt8.toNat_and]
            exact Nat.and_le_right
          rw [toNat_ofNat_of_lt (by omega)]
          omega
        · rw [scan_pair, hlead, step, if_pos hin, if_pos (Nat.le_refl 1)]
          rfl
      · simp [if_neg hin] at hformed
    · rw [hlead, step] at hformed
      by_cases hin : low ≤ b ∧ b ≤ high
      · simp [if_pos hin, scanFrom_inside_nil] at hformed
      · simp [if_neg hin] at hformed

/-! ## The bytes of a character -/

theorem utf8EncodeChar_ascii {c : Char} (h : c.toNat < 0x80) :
    String.utf8EncodeChar c = [UInt8.ofNat c.toNat] := by
  have hle : c.val.toNat ≤ 0x7f := Nat.le_of_lt_succ h
  simp only [String.utf8EncodeChar, if_pos hle]
  rfl

/-- A character outside ASCII takes several bytes, none of which is in ASCII. -/
theorem utf8EncodeChar_of_le {c : Char} (h : 0x80 ≤ c.toNat) :
    (∃ first second rest, String.utf8EncodeChar c = first :: second :: rest) ∧
      ∀ b ∈ String.utf8EncodeChar c, 0x80 ≤ b := by
  have hascii : ¬ c.val.toNat ≤ 0x7f := Nat.not_le.mpr h
  have hbyte : ∀ n, 0x80 ≤ n → n < 0x100 → 0x80 ≤ UInt8.ofNat n := by
    intro n hlow hhigh
    rw [UInt8.le_iff_toNat_le, UInt8.toNat_ofNat_of_lt' hhigh]
    exact hlow
  have hnext : ∀ n, 0x80 ≤ UInt8.ofNat (n % 0x40 + 0x80) := fun n => hbyte _ (by omega) (by omega)
  simp only [String.utf8EncodeChar, if_neg hascii]
  split_ifs <;> refine ⟨⟨_, _, _, rfl⟩, ?_⟩ <;> simp only [List.forall_mem_cons]
  · exact ⟨hbyte _ (by omega) (by omega), hnext _, nofun⟩
  · exact ⟨hbyte _ (by omega) (by omega), hnext _, hnext _, nofun⟩
  · exact ⟨hbyte _ (by omega) (by omega), hnext _, hnext _, hnext _, nofun⟩

end Utf8

/-- Only ASCII characters are digits of any base. -/
theorem Numeral.toNat_lt_of_letterValue? {c : Char} {d : Nat} (h : letterValue? c = some d) :
    c.toNat < 0x80 := by
  have hbound : ∀ {c' : Char}, c ≤ c' → c'.toNat < 0x80 → c.toNat < 0x80 := by
    intro c' hle hascii
    have hnat : c.toNat ≤ c'.toNat := UInt32.le_iff_toNat_le.mp (Char.le_def.mp hle)
    omega
  unfold letterValue? at h
  split_ifs at h with hdigit hlower hupper
  · exact hbound hdigit.2 (by decide)
  · exact hbound hlower.2 (by decide)
  · exact hbound hupper.2 (by decide)

namespace HexBytes

/-! ## Digits and pairs -/

/-- A hexadecimal digit, in either case, with its value. -/
def Digit (c : Char) (d : Nat) : Prop :=
  d < 16 ∧ (c = Nat.digitChar d ∨ c = (Nat.digitChar d).toUpper)

instance (c : Char) (d : Nat) : Decidable (Digit c d) :=
  inferInstanceAs (Decidable (_ ∧ _))

/-- Two digits, and the byte that they write. -/
def DigitPair (c c' : Char) (byte : UInt8) : Prop :=
  ∃ d e, Digit c d ∧ Digit c' e ∧ byte = UInt8.ofNat (16 * d + e)

/-- A digit with a plus sign in front, and the byte that it writes. -/
def SignedDigit (c c' : Char) (byte : UInt8) : Prop :=
  c = '+' ∧ ∃ d, Digit c' d ∧ byte = UInt8.ofNat d

/-- Two characters that are read, and as what byte. -/
def ReadPair (c c' : Char) (byte : UInt8) : Prop :=
  DigitPair c c' byte ∨ SignedDigit c c' byte

/-- Characters are pairs of some kind one behind the other, each of which writes a byte. -/
inductive Paired (writes : Char → Char → UInt8 → Prop) : List Char → List UInt8 → Prop where
  | nil : Paired writes [] []
  | cons {c c' : Char} {byte : UInt8} {chars : List Char} {bytes : List UInt8} :
      writes c c' byte → Paired writes chars bytes →
      Paired writes (c :: c' :: chars) (byte :: bytes)

variable {c c' : Char} {a b byte : UInt8} {d : Nat} {chars : List Char} {bytes : List UInt8}
  {text : String}

theorem Digit.toNat_lt (h : Digit c d) : c.toNat < 0x80 := by
  have hall : ∀ d < 16, (Nat.digitChar d).toNat < 0x80 ∧ (Nat.digitChar d).toUpper.toNat < 0x80 := by
    decide
  obtain ⟨hd, rfl | rfl⟩ := h
  · exact (hall d hd).1
  · exact (hall d hd).2

theorem Digit.ne_plus (h : Digit c d) : c ≠ '+' := by
  have hall : ∀ d < 16, (Nat.digitChar d).toUpper ≠ '+' := by decide
  obtain ⟨hd, rfl | rfl⟩ := h
  · exact digitChar_ne_plus d hd
  · exact hall d hd

/-- The reader takes just the hexadecimal digits for digits. -/
theorem digit?_eq_some_iff : Numeral.digit? 16 c = some d ↔ Digit c d := by
  constructor
  · intro h
    obtain ⟨hletter, hvalue⟩ := Option.filter_eq_some_iff.mp h
    have hascii := Numeral.toNat_lt_of_letterValue? hletter
    have hall : ∀ n < 0x80, ∀ d < 16, Numeral.digit? 16 (Char.ofNat n) = some d →
        Digit (Char.ofNat n) d := by
      decide +kernel
    have hdigit := hall c.toNat hascii d (of_decide_eq_true hvalue)
    rw [Char.ofNat_toNat] at hdigit
    exact hdigit h
  · rintro ⟨hd, rfl | rfl⟩
    · exact Numeral.digit?_digitChar d hd
    · have hall : ∀ d < 16, Numeral.digit? 16 (Nat.digitChar d).toUpper = some d := by decide
      exact hall d hd

/-! ## Reading a pair -/

/-- A single character outside ASCII is no number. -/
theorem read?_of_le (hc : 0x80 ≤ c.toNat) (htext : text.toList = [c]) :
    Numeral.read? 16 256 text = none := by
  have hnone : Numeral.digit? 16 c = none := by
    rw [Option.eq_none_iff_forall_ne_some]
    intro d hd
    have hascii := (digit?_eq_some_iff.mp hd).toNat_lt
    omega
  unfold Numeral.read?
  rw [htext]
  split
  · next rest hplus =>
    obtain ⟨rfl, -⟩ := List.cons.inj hplus
    exact absurd hc (by decide)
  · simp only [Numeral.digits?, Numeral.continue?, hnone, Option.filter_none]

theorem digits?_single_eq_some_iff {n : Nat} :
    Numeral.digits? 16 [c] = some n ↔ Digit c n := by
  rw [← digit?_eq_some_iff]
  cases hc : Numeral.digit? 16 c <;> simp [Numeral.digits?, Numeral.continue?, hc]

theorem digits?_pair_eq_some_iff {n : Nat} :
    Numeral.digits? 16 [c, c'] = some n ↔ ∃ d e, Digit c d ∧ Digit c' e ∧ n = 16 * d + e := by
  simp only [← digit?_eq_some_iff]
  cases hc : Numeral.digit? 16 c <;> cases hc' : Numeral.digit? 16 c' <;>
    simp [Numeral.digits?, Numeral.continue?, hc, hc', eq_comm]

/-- The numbers that two characters write: a plus sign may stand for the first digit. -/
theorem read?_pair_eq_some_iff {n : Nat} (htext : text.toList = [c, c']) :
    Numeral.read? 16 256 text = some n ↔
      (∃ d e, Digit c d ∧ Digit c' e ∧ n = 16 * d + e) ∨ c = '+' ∧ Digit c' n := by
  unfold Numeral.read?
  rw [htext, Option.filter_eq_some_iff, decide_eq_true_eq]
  split
  · next rest hplus =>
    obtain ⟨rfl, rfl⟩ := List.cons.inj hplus
    rw [digits?_single_eq_some_iff]
    constructor
    · rintro ⟨hdigit, -⟩
      exact .inr ⟨rfl, hdigit⟩
    · rintro (⟨d, e, hsign, -⟩ | ⟨-, hdigit⟩)
      · exact absurd rfl hsign.ne_plus
      · exact ⟨hdigit, Nat.lt_trans hdigit.1 (by decide)⟩
  · next hplus =>
    rw [digits?_pair_eq_some_iff]
    constructor
    · rintro ⟨hdigits, -⟩
      exact .inl hdigits
    · rintro (⟨d, e, hd, he, rfl⟩ | ⟨rfl, -⟩)
      · refine ⟨⟨d, e, hd, he, rfl⟩, ?_⟩
        have hd16 := hd.1
        have he16 := he.1
        omega
      · exact absurd rfl (hplus [c'])

/-- **Which two bytes are read, and as what**: those of two ASCII characters that are a pair. -/
theorem decodePair?_eq_some_iff :
    decodePair? a b = some byte ↔
      a < 0x80 ∧ b < 0x80 ∧ ReadPair (Char.ofNat a.toNat) (Char.ofNat b.toNat) byte := by
  have hpair : ∀ {text : String} {c c' : Char}, text.toList = [c, c'] →
      ((Numeral.read? 16 256 text).map UInt8.ofNat = some byte ↔ ReadPair c c' byte) := by
    intro text c c' htext
    simp only [Option.map_eq_some_iff, read?_pair_eq_some_iff htext]
    constructor
    · rintro ⟨n, ⟨d, e, hd, he, rfl⟩ | ⟨hplus, hdigit⟩, rfl⟩
      · exact .inl ⟨d, e, hd, he, rfl⟩
      · exact .inr ⟨hplus, n, hdigit, rfl⟩
    · rintro (⟨d, e, hd, he, rfl⟩ | ⟨hplus, d, hdigit, rfl⟩)
      · exact ⟨_, .inl ⟨d, e, hd, he, rfl⟩, rfl⟩
      · exact ⟨_, .inr ⟨hplus, hdigit⟩, rfl⟩
  unfold decodePair?
  rw [Option.bind_eq_bind, Option.bind_eq_some_iff]
  constructor
  · rintro ⟨text, htext, hread⟩
    rcases Utf8.chars_of_decode?_pair htext with ⟨ha, hb, hchars⟩ | ⟨c, hc, hchars⟩
    · exact ⟨ha, hb, (hpair hchars).mp hread⟩
    · rw [read?_of_le hc hchars] at hread
      cases hread
  · rintro ⟨ha, hb, hread⟩
    refine ⟨String.ofList [Char.ofNat a.toNat, Char.ofNat b.toNat], ?_, ?_⟩
    · rw [Utf8.decode?_eq_some_iff, String.toList_ofList]
      exact Utf8.scan_ascii ha hb
    · exact (hpair String.toList_ofList).mpr hread

/-! ## Reading pairs -/

theorem ReadPair.ascii (h : ReadPair c c' byte) : c.toNat < 0x80 ∧ c'.toNat < 0x80 := by
  rcases h with ⟨d, e, hd, he, -⟩ | ⟨rfl, d, hd, -⟩
  · exact ⟨hd.toNat_lt, he.toNat_lt⟩
  · exact ⟨by decide, hd.toNat_lt⟩

theorem decodePairs_cons_cons (a b : UInt8) (rest bytes : List UInt8) :
    decodePairs (a :: b :: rest) = .ok bytes ↔
      ∃ byte others, decodePair? a b = some byte ∧ decodePairs rest = .ok others ∧
        bytes = byte :: others := by
  rw [decodePairs]
  cases decodePair? a b with
  | none => simp
  | some byte =>
    simp only [Except.map_eq_ok, Option.some.injEq]
    constructor
    · rintro ⟨others, hothers, rfl⟩
      exact ⟨byte, others, rfl, hothers, rfl⟩
    · rintro ⟨_, others, rfl, hothers, rfl⟩
      exact ⟨others, hothers, rfl⟩

/-- A text whose first byte is in ASCII begins with the character of that byte. -/
theorem exists_of_flatMap_eq_cons {rest : List UInt8}
    (h : chars.flatMap String.utf8EncodeChar = a :: rest) (ha : a < 0x80) :
    ∃ others, chars = Char.ofNat a.toNat :: others ∧
      others.flatMap String.utf8EncodeChar = rest := by
  cases chars with
  | nil => cases h
  | cons c others =>
    rw [List.flatMap_cons] at h
    by_cases hc : c.toNat < 0x80
    · rw [Utf8.utf8EncodeChar_ascii hc] at h
      obtain ⟨rfl, hrest⟩ := List.cons.inj h
      refine ⟨others, ?_, hrest⟩
      rw [UInt8.toNat_ofNat_of_lt' (Nat.lt_trans hc (by decide)), Char.ofNat_toNat]
    · obtain ⟨⟨first, second, tail, hbytes⟩, hall⟩ := Utf8.utf8EncodeChar_of_le (Nat.not_lt.mp hc)
      rw [hbytes] at h hall
      obtain ⟨rfl, -⟩ := List.cons.inj h
      exact absurd (hall first List.mem_cons_self) (UInt8.not_le.mpr ha)

/-- Pairs are read as the bytes that they write. -/
theorem Paired.decodePairs (h : Paired ReadPair chars bytes) :
    (chars.flatMap String.utf8EncodeChar).length % 2 = 0 ∧
      HexBytes.decodePairs (chars.flatMap String.utf8EncodeChar) = .ok bytes := by
  induction h with
  | nil => exact ⟨rfl, rfl⟩
  | @cons c c' byte chars bytes hpair _ ih =>
    obtain ⟨hc, hc'⟩ := hpair.ascii
    rw [List.flatMap_cons, List.flatMap_cons, Utf8.utf8EncodeChar_ascii hc,
      Utf8.utf8EncodeChar_ascii hc', List.singleton_append, List.singleton_append]
    constructor
    · rw [List.length_cons, List.length_cons]
      omega
    · refine (decodePairs_cons_cons _ _ _ _).mpr ⟨byte, bytes, ?_, ih.2, rfl⟩
      have hbyte : ∀ {c : Char}, c.toNat < 0x80 → (UInt8.ofNat c.toNat).toNat = c.toNat :=
        fun hc => UInt8.toNat_ofNat_of_lt' (Nat.lt_trans hc (by decide))
      rw [decodePair?_eq_some_iff, UInt8.lt_iff_toNat_lt, UInt8.lt_iff_toNat_lt, hbyte hc, hbyte hc',
        Char.ofNat_toNat, Char.ofNat_toNat]
      exact ⟨hc, hc', hpair⟩

theorem eq_nil_of_flatMap (h : chars.flatMap String.utf8EncodeChar = []) : chars = [] := by
  cases chars with
  | nil => rfl
  | cons c others =>
    have hnone := List.flatMap_eq_nil_iff.mp h c List.mem_cons_self
    exact absurd hnone String.utf8EncodeChar_ne_nil

/-- What is read are pairs. -/
theorem paired_of_decodePairs (heven : (chars.flatMap String.utf8EncodeChar).length % 2 = 0)
    (h : decodePairs (chars.flatMap String.utf8EncodeChar) = .ok bytes) :
    Paired ReadPair chars bytes := by
  -- one pair of bytes is taken off for each byte that is read
  induction bytes generalizing chars with
  | nil =>
    match hdigits : chars.flatMap String.utf8EncodeChar with
    | [] =>
      rw [eq_nil_of_flatMap hdigits]
      exact .nil
    | [_] =>
      rw [hdigits] at heven
      cases heven
    | _ :: _ :: _ =>
      rw [hdigits, decodePairs_cons_cons] at h
      obtain ⟨_, _, -, -, hbytes⟩ := h
      cases hbytes
  | cons byte bytes ih =>
    match hdigits : chars.flatMap String.utf8EncodeChar with
    | [] | [_] =>
      rw [hdigits] at h
      cases h
    | a :: b :: rest =>
      rw [hdigits, decodePairs_cons_cons] at h
      obtain ⟨_, _, hpair, hrest, hbytes⟩ := h
      obtain ⟨rfl, rfl⟩ := List.cons.inj hbytes
      obtain ⟨ha, hb, hread⟩ := decodePair?_eq_some_iff.mp hpair
      obtain ⟨others, rfl, hothers⟩ := exists_of_flatMap_eq_cons hdigits ha
      obtain ⟨chars, rfl, rfl⟩ := exists_of_flatMap_eq_cons hothers hb
      refine .cons hread (ih ?_ hrest)
      rw [hdigits, List.length_cons, List.length_cons] at heven
      omega

/-! ## Reading texts -/

/-- The white space of ASCII that a text may have between its digits. -/
def spaces : List Char :=
  [' ', '\t', '\n', '\x0c', '\r']

/-- The characters of a text without its white space. -/
def compact (text : String) : List Char :=
  text.toList.filter (· ∉ spaces)

/-- A character is white space as a whole or has no byte that is. -/
theorem filter_utf8EncodeChar (c : Char) :
    (String.utf8EncodeChar c).filter (fun b => !isSpace b) =
      if c ∈ spaces then [] else String.utf8EncodeChar c := by
  by_cases hc : c.toNat < 0x80
  · have hascii : ∀ n < 0x80, isSpace (UInt8.ofNat n) = decide (Char.ofNat n ∈ spaces) := by
      decide +kernel
    have hspace := hascii c.toNat hc
    rw [Char.ofNat_toNat] at hspace
    rw [Utf8.utf8EncodeChar_ascii hc, List.filter_cons, hspace, List.filter_nil]
    by_cases hmem : c ∈ spaces <;> simp [hmem]
  · have hspaces : ∀ c ∈ spaces, c.toNat < 0x80 := by
      simp only [spaces, List.forall_mem_cons]
      refine ⟨?_, ?_, ?_, ?_, ?_, nofun⟩ <;> decide
    have hbytes : ∀ b, 0x80 ≤ b → (!isSpace b) = true := by
      intro b hb
      by_contra hspace
      simp only [isSpace, Bool.not_eq_true', Bool.not_eq_false, Bool.or_eq_true,
        decide_eq_true_eq] at hspace
      rcases hspace with (((rfl | rfl) | rfl) | rfl) | rfl <;> exact absurd hb (by decide)
    rw [if_neg fun hmem => hc (hspaces c hmem), List.filter_eq_self]
    intro b hb
    exact hbytes b ((Utf8.utf8EncodeChar_of_le (Nat.not_lt.mp hc)).2 b hb)

/-- White space is left out of the bytes of a text just as it is left out of its characters. -/
theorem filter_encode (text : String) :
    (Utf8.encode text).filter (fun b => !isSpace b) =
      (compact text).flatMap String.utf8EncodeChar := by
  unfold Utf8.encode compact
  induction text.toList with
  | nil => rfl
  | cons c chars ih =>
    rw [List.flatMap_cons, List.filter_append, ih, filter_utf8EncodeChar, List.filter_cons]
    by_cases hmem : c ∈ spaces <;> simp [hmem]

/-- **Reading accepts just the texts of pairs**, between which and in which white space may stand. -/
theorem decode_eq_ok_iff : decode text = .ok bytes ↔ Paired ReadPair (compact text) bytes := by
  unfold decode
  dsimp only
  rw [filter_encode]
  constructor
  · intro h
    split_ifs at h with hodd
    exact paired_of_decodePairs (not_not.mp hodd) h
  · intro h
    obtain ⟨heven, hread⟩ := h.decodePairs
    rw [if_neg (not_not_intro heven)]
    exact hread

/-! ## Plus signs -/

namespace Paired

variable {writes writes' : Char → Char → UInt8 → Prop}

theorem imp (h : Paired writes chars bytes)
    (himp : ∀ {c c' byte}, c ∈ chars → c' ∈ chars → writes c c' byte → writes' c c' byte) :
    Paired writes' chars bytes := by
  induction h with
  | nil => exact .nil
  | cons hpair _ ih =>
    refine .cons (himp (by simp) (by simp) hpair) (ih ?_)
    intro c c' byte hc hc'
    exact himp (by simp [hc]) (by simp [hc'])

/-- Each character is in one of the pairs. -/
theorem exists_of_mem (h : Paired writes chars bytes) (hc : c ∈ chars) :
    ∃ c' byte, writes c c' byte ∨ writes c' c byte := by
  induction h with
  | nil => cases hc
  | @cons first second byte _ _ hpair _ ih =>
    rcases List.mem_cons.mp hc with rfl | hc
    · exact ⟨second, byte, .inl hpair⟩
    rcases List.mem_cons.mp hc with rfl | hc
    · exact ⟨first, byte, .inr hpair⟩
    · exact ih hc

end Paired

theorem exists_paired_of_digits : ∀ {chars : List Char}, chars.length % 2 = 0 →
    (∀ c ∈ chars, ∃ d, Digit c d) → ∃ bytes, Paired DigitPair chars bytes
  | [], _, _ => ⟨[], .nil⟩
  | [_], heven, _ => nomatch heven
  | c :: c' :: chars, heven, hdigits => by
    obtain ⟨⟨d, hd⟩, hdigits⟩ := List.forall_mem_cons.mp hdigits
    obtain ⟨⟨e, he⟩, hdigits⟩ := List.forall_mem_cons.mp hdigits
    rw [List.length_cons, List.length_cons] at heven
    obtain ⟨bytes, hbytes⟩ := exists_paired_of_digits (by omega) hdigits
    exact ⟨_, .cons ⟨d, e, hd, he, rfl⟩ hbytes⟩

/-- Characters are digit pairs just when they are digits and their number is even. -/
theorem exists_paired_digitPair_iff :
    (∃ bytes, Paired DigitPair chars bytes) ↔
      chars.length % 2 = 0 ∧ ∀ c ∈ chars, ∃ d, Digit c d := by
  constructor
  · rintro ⟨bytes, h⟩
    refine ⟨?_, ?_⟩
    · induction h with
      | nil => rfl
      | cons _ _ ih =>
        rw [List.length_cons, List.length_cons]
        omega
    · intro c hc
      obtain ⟨_, _, ⟨d, _, hd, -⟩ | ⟨_, e, -, he, -⟩⟩ := h.exists_of_mem hc
      · exact ⟨d, hd⟩
      · exact ⟨e, he⟩
  · rintro ⟨heven, hdigits⟩
    exact exists_paired_of_digits heven hdigits

/-- Without a plus sign the pairs that are read are digit pairs. -/
theorem paired_readPair_iff (hplus : '+' ∉ chars) :
    Paired ReadPair chars bytes ↔ Paired DigitPair chars bytes := by
  constructor
  · intro h
    refine h.imp ?_
    rintro c c' byte hc - (hpair | ⟨rfl, -⟩)
    · exact hpair
    · exact absurd hc hplus
  · intro h
    exact h.imp fun _ _ hpair => .inl hpair

/-- A plus sign is nowhere among digit pairs. -/
theorem Paired.plus_notMem (h : Paired DigitPair chars bytes) : '+' ∉ chars := by
  intro hplus
  obtain ⟨d, hd⟩ := (exists_paired_digitPair_iff.mp ⟨bytes, h⟩).2 '+' hplus
  exact hd.ne_plus rfl

theorem plus_mem_compact_iff : '+' ∈ compact text ↔ '+' ∈ text.toList := by
  unfold compact
  rw [List.mem_filter]
  exact and_iff_left (by decide)

/-- White space may be put in anywhere. -/
theorem decode_of_compact_eq (h : compact text = (encode bytes).toList) :
    decode text = .ok bytes := by
  have hsame : compact (encode bytes) = compact text := by
    unfold compact at h ⊢
    rw [← h, List.filter_filter]
    simp
  have hread := decode_eq_ok_iff.mp (decode_encode bytes)
  rw [hsame] at hread
  exact decode_eq_ok_iff.mpr hread

/-- **What is read as bytes.** A text is read just when it is made of pairs once its white space is
left out, and the result is the bytes of the pairs. That these are the digit pairs alone, which is
what an even number of hexadecimal digits are, is right just when no text with a plus sign is read.
Any other character makes it an error. And bytes are read back however white space is put into what
is written of them. -/
theorem decode_accepts (text : String) :
    (∀ bytes, decode text = .ok bytes ↔ Paired ReadPair (compact text) bytes) ∧
    ((∀ bytes, decode text = .ok bytes ↔ Paired DigitPair (compact text) bytes) ↔
      ¬ ('+' ∈ text.toList ∧ ∃ bytes, decode text = .ok bytes)) ∧
    ((∃ bytes, Paired DigitPair (compact text) bytes) ↔
      (compact text).length % 2 = 0 ∧ ∀ c ∈ compact text, ∃ d, Digit c d) ∧
    (∀ c ∈ compact text, c ≠ '+' → (∀ d, ¬ Digit c d) →
      ∃ problem, decode text = .error problem) ∧
    ∀ bytes, compact text = (encode bytes).toList → decode text = .ok bytes := by
  refine ⟨fun _ => decode_eq_ok_iff, ?_, exists_paired_digitPair_iff, ?_,
    fun _ => decode_of_compact_eq⟩
  · rw [← plus_mem_compact_iff]
    constructor
    · rintro h ⟨hplus, bytes, hread⟩
      exact ((h bytes).mp hread).plus_notMem hplus
    · intro h bytes
      rw [decode_eq_ok_iff]
      constructor
      · intro hpaired
        have hplus : '+' ∉ compact text := fun hplus =>
          h ⟨hplus, bytes, decode_eq_ok_iff.mpr hpaired⟩
        exact (paired_readPair_iff hplus).mp hpaired
      · intro hpaired
        exact (paired_readPair_iff hpaired.plus_notMem).mpr hpaired
  · intro c hc hplus hdigit
    cases hread : decode text with
    | error problem => exact ⟨problem, rfl⟩
    | ok bytes =>
      exfalso
      obtain ⟨_, _, (⟨d, _, hd, -⟩ | ⟨hsign, -⟩) | ⟨_, e, -, he, -⟩ | ⟨-, e, he, -⟩⟩ :=
        (decode_eq_ok_iff.mp hread).exists_of_mem hc
      · exact hdigit d hd
      · exact hplus hsign
      · exact hdigit e he
      · exact hdigit e he

/-- White space inside a pair, and a character that is no digit. -/
theorem decode_accepts_sample :
    decode "1 3\n0f" = .ok [0x13, 0x0f] ∧ ∃ problem, decode "13g0" = .error problem := by
  have hletter : ∀ d, ¬ Digit 'g' d := by
    intro d hd
    have hall : ∀ d < 16, ¬ Digit 'g' d := by decide
    exact hall d hd.1 hd
  obtain ⟨-, -, -, -, hback⟩ := decode_accepts "1 3\n0f"
  obtain ⟨-, -, -, hother, -⟩ := decode_accepts "13g0"
  exact ⟨hback [0x13, 0x0f] (by decide +kernel), hother 'g' (by decide) (by decide) hletter⟩

/-- **A sign is read**: it is false that just the texts of an even number of digits are. -/
theorem not_decode_digits :
    ¬ ∀ text : String, (∃ bytes, decode text = .ok bytes) ↔
      (compact text).length % 2 = 0 ∧ ∀ c ∈ compact text, ∃ d, Digit c d := by
  intro h
  have hpaired : Paired ReadPair (compact "+f") [0x0f] :=
    .cons (.inr ⟨rfl, 15, by decide, rfl⟩) .nil
  obtain ⟨-, hdigits⟩ := (h "+f").mp ⟨_, decode_eq_ok_iff.mpr hpaired⟩
  obtain ⟨d, hd⟩ := hdigits '+' (by decide)
  exact hd.ne_plus rfl

end HexBytes

end CompiledFrames
