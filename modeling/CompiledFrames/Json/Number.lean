import CompiledFrames.Document.Basic
import CompiledFrames.Text.Numeral

/-!
# Numbers in JSON texts

A number is read as it is written, and its value is worked out when someone asks for it. Whole
numbers of sixty-four bits are exact. For any other number the digits are taken as long as they make
up a whole number of sixty-four bits, and that is multiplied or divided once by a power of ten, in
binary numbers; so the last digit of a value may be off by one.

## Main definitions

* `NumberLiteral.read?` reads a number, `NumberLiteral.spelling` writes it.
* `NumberLiteral.value` is its value, a `NumberValue`.
-/

namespace CompiledFrames

/-- A number as it is written. -/
structure NumberLiteral where
  isNegative : Bool := false
  /-- The digits before the decimal point. -/
  whole : List Char
  /-- The digits behind the decimal point, of which there is one at least if there is a point. -/
  fraction : List Char := []
  exponent : Option Int := none
deriving DecidableEq, Repr, Inhabited

namespace NumberLiteral

/-- Whether a character is a decimal digit. -/
def isDigit (c : Char) : Bool :=
  '0' ≤ c && c ≤ '9'

/-- The value of a decimal digit. -/
def digitValue (c : Char) : Nat :=
  c.toNat - '0'.toNat

/-- A whole number. -/
def ofNat (n : Nat) : NumberLiteral where
  whole := Nat.toDigits 10 n

/-! ## Text -/

/-- The digits behind a decimal point, if there is a point, and what follows. -/
def readFraction? : List Char → Option (List Char × List Char)
  | '.' :: rest =>
    match rest.takeWhile isDigit with
    | [] => none
    | digits => some (digits, rest.dropWhile isDigit)
  | chars => some ([], chars)

/-- The number that some digits write. -/
def magnitude (digits : List Char) : Nat :=
  digits.foldl (fun n c => 10 * n + digitValue c) 0

/-- The digits of an exponent, and what follows. -/
def readExponentDigits? (sign : Int) (chars : List Char) : Option (Int × List Char) :=
  match chars.takeWhile isDigit with
  | [] => none
  | digits => some (sign * magnitude digits, chars.dropWhile isDigit)

/-- The exponent, if there is one, and what follows. -/
def readExponent? : List Char → Option (Option Int × List Char)
  | c :: rest =>
    if c = 'e' ∨ c = 'E' then
      let read :=
        match rest with
        | '+' :: rest => readExponentDigits? 1 rest
        | '-' :: rest => readExponentDigits? (-1) rest
        | rest => readExponentDigits? 1 rest
      read.map fun (exponent, rest) => (some exponent, rest)
    else some (none, c :: rest)
  | [] => some (none, [])

/-- Whether digits may stand before the decimal point: a zero comes first only if it is alone. -/
def isWhole : List Char → Bool
  | [] => false
  | ['0'] => true
  | c :: _ => c != '0'

/-- The number behind a sign, and what follows. -/
def readUnsigned? (isNegative : Bool) (chars : List Char) :
    Option (NumberLiteral × List Char) :=
  if isWhole (chars.takeWhile isDigit) then do
    let (fraction, rest) ← readFraction? (chars.dropWhile isDigit)
    let (exponent, rest) ← readExponent? rest
    return ({ isNegative, whole := chars.takeWhile isDigit, fraction, exponent }, rest)
  else none

/-- The number at the beginning of a text, and what follows. -/
def read? : List Char → Option (NumberLiteral × List Char)
  | '-' :: rest => readUnsigned? true rest
  | chars => readUnsigned? false chars

/-- The text of a number. -/
def spelling (literal : NumberLiteral) : List Char :=
  (if literal.isNegative then ['-'] else []) ++ literal.whole ++
    (if literal.fraction = [] then [] else '.' :: literal.fraction) ++
    match literal.exponent with
    | none => []
    | some exponent => 'e' :: (toString exponent).toList

theorem suffix_of_readFraction? {chars digits rest : List Char}
    (h : readFraction? chars = some (digits, rest)) : rest <:+ chars := by
  unfold readFraction? at h
  split at h
  · split at h
    · cases h
    · cases h
      exact (List.dropWhile_suffix _).trans (List.suffix_cons _ _)
  · cases h
    exact List.suffix_refl _

theorem suffix_of_readExponentDigits? {sign exponent : Int} {chars rest : List Char}
    (h : readExponentDigits? sign chars = some (exponent, rest)) : rest <:+ chars := by
  unfold readExponentDigits? at h
  split at h
  · cases h
  · cases h
    exact List.dropWhile_suffix _

theorem suffix_of_readExponent? {exponent : Option Int} {chars rest : List Char}
    (h : readExponent? chars = some (exponent, rest)) : rest <:+ chars := by
  unfold readExponent? at h
  split at h
  · split at h
    · obtain ⟨⟨_, _⟩, hread, heq⟩ := Option.map_eq_some_iff.1 h
      cases heq
      split at hread
      · exact ((suffix_of_readExponentDigits? hread).trans (List.suffix_cons _ _)).trans
          (List.suffix_cons _ _)
      · exact ((suffix_of_readExponentDigits? hread).trans (List.suffix_cons _ _)).trans
          (List.suffix_cons _ _)
      · exact (suffix_of_readExponentDigits? hread).trans (List.suffix_cons _ _)
    · cases h
      exact List.suffix_refl _
  · cases h
    exact List.suffix_refl _

theorem length_of_readUnsigned? {isNegative : Bool} {chars rest : List Char}
    {literal : NumberLiteral} (h : readUnsigned? isNegative chars = some (literal, rest)) :
    rest.length < chars.length := by
  unfold readUnsigned? at h
  simp only [Option.bind_eq_bind, Option.pure_def] at h
  split at h
  · next hwhole =>
    obtain ⟨⟨_, behind⟩, hfraction, h⟩ := Option.bind_eq_some_iff.1 h
    obtain ⟨⟨_, _⟩, hexponent, h⟩ := Option.bind_eq_some_iff.1 h
    cases h
    have hle := ((suffix_of_readExponent? hexponent).trans
      (suffix_of_readFraction? hfraction)).length_le
    have hsum := congrArg List.length (List.takeWhile_append_dropWhile (p := isDigit) (l := chars))
    have hpos : 0 < (chars.takeWhile isDigit).length := by
      refine List.length_pos_iff.2 fun hnil => ?_
      rw [hnil] at hwhole
      exact absurd hwhole (by decide)
    rw [List.length_append] at hsum
    dsimp only at hle ⊢
    omega
  · cases h

/-- A number takes up one character at least. -/
theorem length_of_read? {chars rest : List Char} {literal : NumberLiteral}
    (h : read? chars = some (literal, rest)) : rest.length < chars.length := by
  unfold read? at h
  split at h
  · exact Nat.lt_succ_of_lt (length_of_readUnsigned? h)
  · exact length_of_readUnsigned? h

/-! ## Value -/

/-- The number that digits continue as long as it stays below `2 ^ 64`, and the other digits. -/
def takeFitting : Nat → List Char → Nat × List Char
  | n, [] => (n, [])
  | n, c :: rest =>
    let next := 10 * n + digitValue c
    if next < UInt64.size then takeFitting next rest else (n, c :: rest)

/-- A power of ten. -/
def powerOfTen? (n : Nat) : Option Binary64 :=
  Binary64.ofNat? (Nat.pow 10 n)

/-- The greatest exponent of a power of ten that is a binary number. -/
def mostTens : Nat := 308

/-- A binary number divided by `10 ^ n`, by one division after the other if it takes several. -/
def divideByTens? (x : Binary64) (n : Nat) : Option Binary64 :=
  if n ≤ mostTens then (powerOfTen? n).bind x.div?
  else if x.isZero then some x
  else do
    let y ← (powerOfTen? mostTens).bind x.div?
    divideByTens? y (n - mostTens)
termination_by n
decreasing_by
  simp only [mostTens] at *
  omega

/-- The number `n * 10 ^ exponent` as a binary number. -/
def scale? (n : Nat) (exponent : Int) : Option Binary64 := do
  let x ← Binary64.ofNat? n
  if exponent < 0 then divideByTens? x exponent.natAbs
  else if exponent.toNat ≤ mostTens then (powerOfTen? exponent.toNat).bind x.mul?
  else if x.isZero then some x
  else none

/-- The value of a number as a binary number. -/
def realValue (literal : NumberLiteral) : NumberValue :=
  let (n, dropped) := takeFitting 0 literal.whole
  -- a digit behind the point may fit even if one before it did not
  let (n, unused) := takeFitting n literal.fraction
  let places := literal.fraction.length - unused.length
  match scale? n ((dropped.length : Int) - places + literal.exponent.getD 0) with
  | some magnitude => .real literal.isNegative magnitude
  | none => .outOfRange

/-- The value of a number. A zero with a sign is no whole number. -/
def value (literal : NumberLiteral) : NumberValue :=
  let n := magnitude literal.whole
  if literal.fraction ≠ [] ∨ literal.exponent ≠ none then literal.realValue
  else if literal.isNegative then
    if 0 < n ∧ n ≤ 0x8000000000000000 then .whole (-(n : Int)) else literal.realValue
  else if n < UInt64.size then .whole n
  else literal.realValue

end NumberLiteral

end CompiledFrames
