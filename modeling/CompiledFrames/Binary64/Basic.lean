/-!
# Binary numbers of sixty-four bits

The finite numbers of the format *binary64*, without their signs. Every operation gives the number
closest to the exact result, and of two equally close ones the one with the even significand.

## Main definitions

* `Binary64.ofRatio?` rounds a fraction.
* `Binary64.mul?` and `Binary64.div?` are the operations.
-/

namespace CompiledFrames

/-- The number `significand * 2 ^ exponent`. The significand has fifty-three bits; it may have fewer
if the exponent is the least one, which is minus 1074. -/
structure Binary64 where
  significand : Nat
  exponent : Int
deriving DecidableEq, Repr, Inhabited

namespace Binary64

/-- The number above all significands. -/
def bound : Nat := 0x20000000000000

/-- The least significand of fifty-three bits. -/
def leastFull : Nat := 0x10000000000000

/-- The number zero. -/
def zero : Binary64 := ⟨0, -1074⟩

/-- Whether a number is zero. -/
def isZero (x : Binary64) : Bool :=
  x.significand == 0

/-- The number as a fraction. -/
def ratio (x : Binary64) : Nat × Nat :=
  (x.significand <<< x.exponent.toNat, 1 <<< (-x.exponent).toNat)

/-- The whole number closest to `n / d`, the even one of two. -/
def roundEven (n d : Nat) : Nat :=
  let whole := n / d
  let twice := 2 * (n % d)
  if twice > d ∨ (twice = d ∧ whole % 2 = 1) then whole + 1 else whole

/-- The exponent of the highest power of two that is at most `n / d`, both being positive. -/
def magnitude (n d : Nat) : Int :=
  let estimate : Int := (n.log2 : Int) - d.log2
  if d <<< estimate.toNat ≤ n <<< (-estimate).toNat then estimate else estimate - 1

/-- The number closest to `n / d`, unless that is above the greatest number. -/
def ofRatio? (n d : Nat) : Option Binary64 :=
  if n = 0 then some zero
  else
    let exponent := max (magnitude n d - 52) (-1074)
    let significand := roundEven (n <<< (-exponent).toNat) (d <<< exponent.toNat)
    let x : Binary64 :=
      if significand = bound then ⟨leastFull, exponent + 1⟩ else ⟨significand, exponent⟩
    if x.exponent ≤ 971 then some x else none

/-- The number closest to a whole number. -/
def ofNat? (n : Nat) : Option Binary64 :=
  ofRatio? n 1

/-- The product. -/
def mul? (x y : Binary64) : Option Binary64 :=
  ofRatio? (x.ratio.1 * y.ratio.1) (x.ratio.2 * y.ratio.2)

/-- The quotient by a number other than zero. -/
def div? (x y : Binary64) : Option Binary64 :=
  ofRatio? (x.ratio.1 * y.ratio.2) (x.ratio.2 * y.ratio.1)

end Binary64

end CompiledFrames
