/-!
# Traps

A check of machine arithmetic that stops the computation for good. A trap is no `Error`: nothing
declines, falls back or carries on after one.
-/

namespace CompiledFrames

/-- The checks that stop a computation. -/
inductive Trap where
  /-- A checked sum does not fit its width. -/
  | addOverflow
  /-- A checked product does not fit its width. -/
  | mulOverflow
  /-- An alignment is not a power of two. -/
  | badAlignment
deriving DecidableEq, Repr

/-- The text of a trap. -/
def Trap.message : Trap → String
  | .addOverflow => "attempt to add with overflow"
  | .mulOverflow => "attempt to multiply with overflow"
  | .badAlignment => "assertion failed: align.is_power_of_two()"

end CompiledFrames
