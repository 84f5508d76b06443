/-!
# Remainders

What is left over of a list when something has been read from its beginning. It is shorter than the
list, so reading on from there comes to an end.
-/

namespace CompiledFrames

/-- A list that is shorter than `whole`, namely what is left over of it. -/
structure Remainder {α : Type} (whole : List α) where
  rest : List α
  length_lt : rest.length < whole.length

namespace Remainder

variable {α : Type}

/-- What is left over behind the first element. -/
def tail (a : α) (rest : List α) : Remainder (a :: rest) :=
  ⟨rest, Nat.lt_succ_self _⟩

/-- What is left over of a list, of the same list with one more element before it. -/
def cons {whole : List α} (r : Remainder whole) (a : α) : Remainder (a :: whole) :=
  ⟨r.rest, Nat.lt_succ_of_lt r.length_lt⟩

end Remainder

end CompiledFrames
