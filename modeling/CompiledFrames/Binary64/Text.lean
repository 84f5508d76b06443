import CompiledFrames.Binary64.Basic

/-!
# Binary numbers as decimal text

A number is written with the fewest digits that lead back to it, and of those the ones closest to
it. Digits are written positionally around the decimal point as long as that takes few zeros, and
with a power of ten otherwise.

## Main definitions

* `Binary64.shortest` finds the digits.
* `Binary64.text` writes them.
-/

namespace CompiledFrames.Binary64

/-- The number `digits * 10 ^ exponent`. -/
structure Decimal where
  digits : Nat
  exponent : Int
deriving DecidableEq, Repr

/-- The number without the zeros at the end of its digits; `fuel` is at least their number. -/
def Decimal.trim (fuel : Nat) (x : Decimal) : Decimal :=
  match fuel with
  | 0 => x
  | fuel + 1 =>
    if x.digits % 10 = 0 ∧ x.digits ≠ 0 then
      Decimal.trim fuel ⟨x.digits / 10, x.exponent + 1⟩
    else x

/-- A number other than zero, and the two ends of the reals that are rounded to it, all three over
one denominator. -/
structure Interval where
  low : Nat
  middle : Nat
  high : Nat
  denominator : Nat
  /-- Whether the ends are rounded to the number too. -/
  hasEnds : Bool
deriving Repr

/-- The reals around a number that are rounded to it. Below a power of two the next number is only
half as far away. -/
def interval (x : Binary64) : Interval :=
  let isPower := x.significand = leastFull ∧ x.exponent > -1074
  let exponent := x.exponent - 2
  let scale := exponent.toNat
  { low := (4 * x.significand - (if isPower then 1 else 2)) <<< scale
    middle := (4 * x.significand) <<< scale
    high := (4 * x.significand + 2) <<< scale
    denominator := 1 <<< (-exponent).toNat
    hasEnds := x.significand % 2 = 0 }

/-- The interval in units of `10 ^ exponent`. -/
def Interval.inUnits (i : Interval) (exponent : Int) : Interval :=
  let scale := Nat.pow 10 (-exponent).toNat
  { i with
    low := i.low * scale
    middle := i.middle * scale
    high := i.high * scale
    denominator := i.denominator * Nat.pow 10 exponent.toNat }

/-- Whether a whole number is in the interval. -/
def Interval.contains (i : Interval) (n : Nat) : Bool :=
  let n := n * i.denominator
  if i.hasEnds then i.low ≤ n && n ≤ i.high else i.low < n && n < i.high

/-- The whole number in the interval that is closest to the middle, the even one of two. -/
def Interval.nearest? (i : Interval) : Option Nat :=
  let below := i.middle / i.denominator
  let nearest := roundEven i.middle i.denominator
  if i.contains nearest then some nearest
  else if i.contains below then some below
  else if i.contains (below + 1) then some (below + 1)
  else none

/-- The exponent of the highest power of ten that is at most the middle. -/
def Interval.tens (i : Interval) : Int :=
  if i.denominator ≤ i.middle then ((Nat.toDigits 10 (i.middle / i.denominator)).length : Int) - 1
  else
    match (List.range 330).find? fun n => i.denominator ≤ i.middle * Nat.pow 10 n with
    | some n => -(n : Int)
    | none => -330

/-- The fewest digits that lead back to a number other than zero. -/
def shortest (x : Binary64) : Decimal :=
  let i := x.interval
  let found := (List.range 17).findSome? fun (n : Nat) =>
    let exponent := i.tens - n
    (i.inUnits exponent).nearest?.map fun digits => (⟨digits, exponent⟩ : Decimal)
  (found.getD ⟨0, 0⟩).trim 20

/-- How a number is written. -/
structure Layout where
  /-- The digits before the decimal point that are written positionally, at most. -/
  mostBefore : Int
  /-- The zeros between the decimal point and the digits that are written, at most. -/
  mostZeros : Int
deriving Repr

/-- Up to sixteen digits stand before the point, and up to four zeros behind it. -/
def layout : Layout := ⟨16, 4⟩

/-- The text of a number: with a decimal point, or with a power of ten. -/
def text (x : Binary64) : String :=
  if x.isZero then "0.0"
  else
    let decimal := x.shortest
    let digits := Nat.toDigits 10 decimal.digits
    let point := (digits.length : Int) + decimal.exponent
    let zeros (n : Int) := List.replicate n.toNat '0'
    String.ofList <|
      if 0 ≤ decimal.exponent ∧ point ≤ layout.mostBefore then
        digits ++ zeros decimal.exponent ++ ['.', '0']
      else if 0 < point ∧ point ≤ layout.mostBefore then
        digits.take point.toNat ++ '.' :: digits.drop point.toNat
      else if -layout.mostZeros ≤ point ∧ point ≤ 0 then
        ['0', '.'] ++ zeros (-point) ++ digits
      else
        let mantissa :=
          match digits with
          | [d] => [d]
          | d :: rest => d :: '.' :: rest
          | [] => []
        mantissa ++ 'e' :: (toString (point - 1)).toList

end CompiledFrames.Binary64
