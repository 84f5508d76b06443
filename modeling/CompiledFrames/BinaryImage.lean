import CompiledFrames.Elf.Image
import CompiledFrames.Symbol.Basic

/-!
# Binary images

Object files as they lie in the memory of a process. A file names its symbols by the places at
which it would like to be loaded; the loader moves all of it by one distance, so that its lowest
segment is at the load address. The symbols for linking at run time are used too, since a stripped
file has no others.

## Main definitions

* `ObjectFile.definitions` are the symbols of a file in memory.
* `BinaryImage.load` gives the module of an image that has been loaded.
-/

namespace CompiledFrames

namespace ObjectSymbol

/-- Whether the file defines the symbol, and it stands for code or data. -/
def IsUsed (symbol : ObjectSymbol) : Prop :=
  symbol.isDefined ∧ (symbol.kind = .code ∨ symbol.kind = .data)

instance (symbol : ObjectSymbol) : Decidable symbol.IsUsed :=
  inferInstanceAs (Decidable (_ ∧ _))

end ObjectSymbol

namespace ObjectFile

/-- The lowest place of a segment. -/
def base (object : ObjectFile) : Nat :=
  (object.segments.map (·.address.toNat)).min?.getD 0

/-- The distance from the lowest place to the end of the highest segment, where no segment reaches
past the last place of all. -/
def size (object : ObjectFile) : Nat :=
  let stop (segment : ObjectSegment) :=
    min (segment.address.toNat + segment.size.toNat) (0x10000000000000000 - 1)
  (object.segments.map stop).max?.getD object.base - object.base

/-- The named code and data that the file defines, moved with the lowest place to `load`. -/
def definitions (object : ObjectFile) (load : Address) : List Symbol :=
  ((object.symbols ++ object.dynamicSymbols).filter (·.IsUsed)).filterMap fun symbol =>
    (symbol.name.filter (· ≠ "")).map fun name =>
      -- both steps wrap around, so a file may lie anywhere
      { name, address := load + symbol.address.toNat - object.base, size := symbol.size }

end ObjectFile

/-- A binary image in the memory of a process. -/
structure BinaryImage where
  path : String
  /-- The place of the lowest segment. -/
  loadAddress : Address
deriving DecidableEq, Repr, Inhabited

namespace BinaryImage

/-- The symbols of an image that the file `object` is loaded as. -/
def moduleOf (image : BinaryImage) (object : ObjectFile) : SymbolModule :=
  let range :=
    if object.size = 0 then none else some (image.loadAddress, image.loadAddress + object.size)
  (SymbolModule.empty image.path range).pushAll (object.definitions image.loadAddress)

/-- The module of an image that the file `object` is loaded as, if it was built for riscv64. -/
def ofObject (image : BinaryImage) (object : ObjectFile) : Except Error SymbolModule :=
  match object.machine with
  | .known .riscv64 => .ok (image.moduleOf object)
  | .known other => .error (.unsupportedTarget other)
  | .other name => .error (.invalidArgument (image.path ++ ": unrecognised architecture " ++ name))

/-- The module of an image whose file has the bytes `file`. -/
def ofFile (image : BinaryImage) (file : Array UInt8) (format : ObjectFormat := .elf) :
    Except Error SymbolModule :=
  match format.read file with
  | some object => image.ofObject object
  | none => .error .object

/-- The module of an image, whose file is found by its path. -/
def load (image : BinaryImage) (files : String → Except FileProblem (Array UInt8))
    (format : ObjectFormat := .elf) : Except Error SymbolModule := do
  image.ofFile (← (files image.path).mapError Error.file) format

end BinaryImage

end CompiledFrames
