import CompiledFrames.Json.Token
import CompiledFrames.Proofs.Text.Hexadecimal

/-!
# Numbers and texts in documents are read back

What is written of a natural number or of a text is read again as the same number or text. A number
ends where its digits do, so nothing may follow it that would continue it. A text has an end of its
own, and each of its characters is written so that it cannot be taken for that end.

## Main definitions

* `NumberLiteral.Stops`: characters that do not continue a number

## Main results

* `NumberLiteral.read?_toDigits`, `NumberLiteral.value_ofNat`: a natural number is read back
* `JsonText.exists_read?_writeChar`: what one character is written as
* `JsonText.exists_read?_write`, `JsonText.join_char`: a text is read back
-/

namespace CompiledFrames

/-! ## Numbers -/

namespace NumberLiteral

variable {n : Nat} {rest : List Char}

/-- The characters do not continue a number. -/
def Stops (rest : List Char) : Prop :=
  ∀ c ∈ rest.head?, isDigit c = false ∧ c ≠ '.' ∧ c ≠ 'e' ∧ c ≠ 'E'

theorem stops_nil : Stops [] := nofun

theorem stops_cons {c : Char} (h : isDigit c = false ∧ c ≠ '.' ∧ c ≠ 'e' ∧ c ≠ 'E') :
    Stops (c :: rest) := by
  rintro _ ⟨⟩
  exact h

theorem isDigit_of_mem_toDigits {c : Char} (h : c ∈ Nat.toDigits 10 n) : isDigit c = true :=
  Nat.isDigit_of_mem_toDigits (by omega) (by omega) h

/-- A zero comes first only in the digits of zero. -/
theorem exists_toDigits_eq_cons (h : 0 < n) :
    ∃ c rest, Nat.toDigits 10 n = c :: rest ∧ c ≠ '0' := by
  induction n using Nat.strong_induction_on with
  | _ n ih =>
    rw [Nat.toDigits_eq_if (by omega)]
    split_ifs with hsmall
    · have hdigit : ∀ d < 10, 0 < d → Nat.digitChar d ≠ '0' := by decide
      exact ⟨_, [], rfl, hdigit n hsmall h⟩
    · obtain ⟨c, rest, hdigits, hc⟩ := ih (n / 10) (by omega) (by omega)
      exact ⟨c, rest ++ [Nat.digitChar (n % 10)], by rw [hdigits, List.cons_append], hc⟩

theorem isWhole_toDigits (n : Nat) : isWhole (Nat.toDigits 10 n) = true := by
  rcases Nat.eq_zero_or_pos n with rfl | hpos
  · rfl
  · obtain ⟨c, rest, hdigits, hc⟩ := exists_toDigits_eq_cons hpos
    rw [hdigits]
    unfold isWhole
    split <;> simp_all

theorem readFraction?_of_stops (h : Stops rest) : readFraction? rest = some ([], rest) := by
  unfold readFraction?
  split
  · exact absurd rfl (h '.' rfl).2.1
  · rfl

theorem readExponent?_of_stops (h : Stops rest) : readExponent? rest = some (none, rest) := by
  unfold readExponent?
  split
  · next c chars =>
    obtain ⟨-, -, he, hE⟩ := h c rfl
    rw [if_neg (not_or.mpr ⟨he, hE⟩)]
  · rfl

/-- The digits of a number are read as that number, up to where they stop. -/
theorem readUnsigned?_toDigits (h : Stops rest) :
    readUnsigned? false (Nat.toDigits 10 n ++ rest) = some (ofNat n, rest) := by
  have hdigits : ∀ c ∈ Nat.toDigits 10 n, isDigit c = true := fun c hc => isDigit_of_mem_toDigits hc
  have htake : rest.takeWhile isDigit = [] ∧ rest.dropWhile isDigit = rest := by
    cases rest with
    | nil => exact ⟨rfl, rfl⟩
    | cons c chars =>
      have hc := (h c rfl).1
      exact ⟨List.takeWhile_cons_of_neg (by simp [hc]), List.dropWhile_cons_of_neg (by simp [hc])⟩
  unfold readUnsigned?
  rw [List.takeWhile_append_of_pos hdigits, List.dropWhile_append_of_pos hdigits, htake.1, htake.2,
    List.append_nil, if_pos (isWhole_toDigits n)]
  simp only [readFraction?_of_stops h, Option.bind_eq_bind, Option.bind_some,
    readExponent?_of_stops h]
  rfl

/-- **A natural number is read back.** -/
theorem read?_toDigits (h : Stops rest) :
    read? (Nat.toDigits 10 n ++ rest) = some (ofNat n, rest) := by
  unfold read?
  split
  · next chars hminus =>
    cases hdigits : Nat.toDigits 10 n with
    | nil => exact absurd hdigits Nat.toDigits_ne_nil
    | cons c more =>
      rw [hdigits, List.cons_append] at hminus
      have hc : isDigit c = true := isDigit_of_mem_toDigits (n := n) (hdigits ▸ List.mem_cons_self)
      rw [(List.cons.inj hminus).1] at hc
      exact absurd hc (by decide)
  · exact readUnsigned?_toDigits h

theorem spelling_ofNat (n : Nat) : (ofNat n).spelling = Nat.toDigits 10 n := by
  simp [spelling, ofNat]

/-- The value of a natural number that sixty-four bits can hold. -/
theorem value_ofNat (h : n < UInt64.size) : (ofNat n).value = .whole n := by
  have hmagnitude : magnitude (Nat.toDigits 10 n) = n := Nat.ofDigitChars_ten_toDigits
  simp only [value, ofNat, hmagnitude]
  simp [h]

end NumberLiteral

/-! ## Texts -/

namespace JsonText

variable {c : Char} {rest : List Char} {units : List TextUnit} {behind : Remainder rest}

/-! ### One character -/

theorem read?_shortEscape {escape : Char} (hu : escape ≠ 'u') (hc : shortEscape? escape = some c)
    (h : read? rest = some (units, behind)) :
    read? ('\\' :: escape :: rest) =
      some (.char c :: units, (behind.cons escape).cons '\\') := by
  rw [read?]
  · simp only [hc, h, Option.bind_eq_bind, Option.bind_some, Option.pure_def]
  · intro _ _ _ _ _ hescape
    exact absurd hescape hu

theorem read?_numberEscape {a b d e : Char} {code : Nat}
    (hcode : Numeral.digits? 16 [a, b, d, e] = some code)
    (h : read? rest = some (units, behind)) :
    read? ('\\' :: 'u' :: a :: b :: d :: e :: rest) =
      some (unitOf code :: units,
        (((((behind.cons e).cons d).cons b).cons a).cons 'u').cons '\\') := by
  rw [read?]
  simp only [hcode, h, Option.bind_eq_bind, Option.bind_some, Option.pure_def]

theorem read?_plain (hquote : c ≠ '"') (hescape : c ≠ '\\') (hcontrol : isControl c = false)
    (h : read? rest = some (units, behind)) :
    read? (c :: rest) = some (.char c :: units, behind.cons c) := by
  rw [read?]
  · simp [hescape, hcontrol, h]
  · exact hquote
  · intro _ _ _ _ _ hc
    exact absurd hc hescape
  · intro _ _ hc
    exact absurd hc hescape

/-- A letter behind the backslash is read as the character that it was written for. -/
theorem shortEscape?_of_escapeLetter? {letter : Char} (h : escapeLetter? c = some letter) :
    letter ≠ 'u' ∧ shortEscape? letter = some c := by
  unfold escapeLetter? at h
  split at h
  case h_8 => cases h
  all_goals
    obtain rfl := Option.some.inj h
    exact ⟨by decide, rfl⟩

theorem ne_of_escapeLetter? (h : escapeLetter? c = none) : c ≠ '"' ∧ c ≠ '\\' := by
  constructor
  · rintro rfl
    cases h
  · rintro rfl
    cases h

/-- The number of a control character takes up two digits, and two zeros fill them up. -/
theorem digits?_zeros : ∀ n < 32,
    Numeral.digits? 16 ['0', '0', Nat.digitChar (n / 16), Nat.digitChar (n % 16)] = some n := by
  decide

theorem toNat_lt_of_isControl (h : isControl c = true) : c.toNat < 32 := by
  have hlt : c < ' ' := by simpa [isControl] using h
  exact hlt

/-- A character with a number below those of surrogates is what its number stands for. -/
theorem unitOf_toNat (h : c.toNat < 0xd800) : unitOf c.toNat = .char c := by
  unfold unitOf
  rw [if_neg (by omega), Char.ofNat_toNat]

/-- **What one character is written as** is read as that character. -/
theorem exists_read?_writeChar (c : Char) (h : read? rest = some (units, behind)) :
    ∃ behind' : Remainder (writeChar c ++ rest),
      read? (writeChar c ++ rest) = some (.char c :: units, behind') ∧
        behind'.rest = behind.rest := by
  cases hletter : escapeLetter? c with
  | some letter =>
    obtain ⟨hu, hc⟩ := shortEscape?_of_escapeLetter? hletter
    have hwritten : writeChar c = ['\\', letter] := by
      simp only [writeChar, hletter]
    rw [hwritten]
    exact ⟨_, read?_shortEscape hu hc h, rfl⟩
  | none =>
    obtain ⟨hquote, hescape⟩ := ne_of_escapeLetter? hletter
    by_cases hcontrol : isControl c = true
    · have hlt := toNat_lt_of_isControl hcontrol
      have hwritten : writeChar c =
          ['\\', 'u', '0', '0', Nat.digitChar (c.toNat / 16), Nat.digitChar (c.toNat % 16)] := by
        simp only [writeChar, hletter, if_pos hcontrol,
          Numeral.toList_hexFilled 2 (show c.toNat < 256 by omega)]
        rfl
      have hread := read?_numberEscape (digits?_zeros c.toNat hlt) h
      rw [unitOf_toNat (by omega)] at hread
      rw [hwritten]
      exact ⟨_, hread, rfl⟩
    · have hwritten : writeChar c = [c] := by
        simp only [writeChar, hletter, if_neg hcontrol]
      rw [hwritten]
      exact ⟨_, read?_plain hquote hescape (by simpa using hcontrol) h, rfl⟩

/-! ### Texts -/

/-- The characters of a text are read up to the quote that closes it. -/
theorem exists_read?_write (chars rest : List Char) :
    ∃ behind : Remainder (chars.flatMap writeChar ++ '"' :: rest),
      read? (chars.flatMap writeChar ++ '"' :: rest) = some (chars.map .char, behind) ∧
        behind.rest = rest := by
  induction chars with
  | nil => exact ⟨.tail '"' rest, rfl, rfl⟩
  | cons c chars ih =>
    obtain ⟨behind, hread, hbehind⟩ := ih
    obtain ⟨behind', hread', hbehind'⟩ := exists_read?_writeChar c hread
    rw [List.flatMap_cons, List.append_assoc]
    exact ⟨behind', hread', hbehind'.trans hbehind⟩

/-- Without halves of surrogate pairs every unit is a character. -/
theorem join_char (chars : List Char) : join (chars.map .char) = some chars := by
  induction chars with
  | nil => rfl
  | cons c chars ih => rw [List.map_cons, join, ih, Option.map_some]

end JsonText

end CompiledFrames
