import CompiledFrames.Binary64.Basic

/-!
# Documents

The tree that a text describes. A text that stops being well formed somewhere still has a tree, with
all that comes before: then the arrays and objects that are open at that place are not closed, and a
value may be missing. So whoever goes through the tree from left to right meets a value of the wrong
kind before a fault that lies behind it.

## Main definitions

* `Document` is the tree, `NumberValue` the value of a number in it.
-/

namespace CompiledFrames

/-- The value of a number. -/
inductive NumberValue where
  /-- A whole number from `-2 ^ 63` up to `2 ^ 64 - 1`. -/
  | whole (n : Int)
  | real (isNegative : Bool) (magnitude : Binary64)
  /-- A number above all binary numbers. -/
  | outOfRange
deriving DecidableEq, Repr

/-- The tree that a text describes. -/
inductive Document where
  /-- There is no value here; the text stops being well formed before. -/
  | missing
  | null
  | bool (value : Bool)
  | number (value : NumberValue)
  /-- A text, or nothing in its place if it has halves of surrogate pairs. -/
  | text (value : Option String)
  | array (items : List Document) (isClosed : Bool)
  /-- The entries of an object in their order, where keys may come again. -/
  | object (entries : List (Option String × Document)) (isClosed : Bool)
deriving Repr, Inhabited

/-- Whether nothing is missing of a value. -/
def Document.isWhole : Document → Bool
  | missing => false
  | array _ isClosed => isClosed
  | object _ isClosed => isClosed
  | _ => true

end CompiledFrames
