/-!
# Numerals

Natural numbers as text. Writing is in lower-case hexadecimal, either bare or filled up with
zeros; reading takes any radix up to thirty-six and a bound which the value has to stay below.

## Main definitions

* `Numeral.hex`, `Numeral.hexFilled` write a number.
* `Numeral.read?` reads one.
-/

namespace CompiledFrames.Numeral

/-- The digits of `n` in lower-case hexadecimal, with no leading zero. -/
def hex (n : Nat) : String :=
  String.ofList (Nat.toDigits 16 n)

/-- The digits of `n` in lower-case hexadecimal, filled up with zeros to at least `width`. -/
def hexFilled (width n : Nat) : String :=
  let digits := Nat.toDigits 16 n
  String.ofList (List.replicate (width - digits.length) '0' ++ digits)

/-- The value of a letter or digit as a numeral of base thirty-six; both cases of a letter count. -/
def letterValue? (c : Char) : Option Nat :=
  if '0' ≤ c ∧ c ≤ '9' then some (c.toNat - '0'.toNat)
  else if 'a' ≤ c ∧ c ≤ 'z' then some (c.toNat - 'a'.toNat + 10)
  else if 'A' ≤ c ∧ c ≤ 'Z' then some (c.toNat - 'A'.toNat + 10)
  else none

/-- The value of one digit, if the radix has that digit. -/
def digit? (radix : Nat) (c : Char) : Option Nat :=
  (letterValue? c).filter (· < radix)

/-- The number that `digits` continue, starting from `value`. -/
def continue? (radix : Nat) : Nat → List Char → Option Nat
  | value, [] => some value
  | value, c :: rest =>
    match digit? radix c with
    | some d => continue? radix (radix * value + d) rest
    | none => none

/-- The number written by one or more digits. -/
def digits? (radix : Nat) : List Char → Option Nat
  | [] => none
  | digits => continue? radix 0 digits

/-- The number below `bound` that a text writes: one or more digits, which one plus sign may lead.
-/
def read? (radix bound : Nat) (text : String) : Option Nat :=
  let digits :=
    match text.toList with
    | '+' :: rest => rest
    | chars => chars
  (digits? radix digits).filter (· < bound)

end CompiledFrames.Numeral
