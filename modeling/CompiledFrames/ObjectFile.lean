import CompiledFrames.Address
import CompiledFrames.Architecture

/-!
# Object files

What a binary file says about itself: the machine that it was built for, the parts of memory that it
fills when it is loaded, and its symbols. How a file writes this down is a matter of its format.

## Main definitions

* `ObjectFile` is what a file says.
* `ObjectFormat` is a way to read files.
-/

namespace CompiledFrames

/-- The machine that a file was built for. -/
inductive ObjectMachine where
  | known (architecture : Architecture)
  /-- A machine of no use here, by its name. -/
  | other (name : String)
deriving DecidableEq, Repr

/-- A part of memory that is filled when the file is loaded. -/
structure ObjectSegment where
  address : Address
  size : UInt64
deriving DecidableEq, Repr

/-- What a symbol of a file stands for. -/
inductive ObjectSymbolKind where
  | code
  | data
  | other
deriving DecidableEq, Repr

/-- A symbol of a file. -/
structure ObjectSymbol where
  /-- The name, if it can be read. -/
  name : Option String
  kind : ObjectSymbolKind
  isDefined : Bool
  address : Address
  size : UInt64
deriving DecidableEq, Repr

/-- What a file says about itself. -/
structure ObjectFile where
  machine : ObjectMachine
  segments : List ObjectSegment
  symbols : List ObjectSymbol
  /-- The symbols for linking at run time. -/
  dynamicSymbols : List ObjectSymbol
deriving DecidableEq, Repr

/-- A way to read files. -/
structure ObjectFormat where
  /-- What the bytes of a file say, if they are those of an object file. -/
  read : Array UInt8 → Option ObjectFile

end CompiledFrames
