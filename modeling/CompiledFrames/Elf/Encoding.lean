import CompiledFrames.Memory

/-!
# The encoding of ELF files

An ELF file consists of records of unsigned numbers. The width of some of them depends on the class
of the file, and the order of their bytes on its data encoding. Everything here fails if it runs
past the end of the file.

## Main definitions

* `ElfEncoding` is class and byte order, `ElfEncoding.read?` finds them at the start of a file.
* `ElfEncoding.record?` reads a record, `ElfEncoding.table?` a sequence of records.
-/

namespace CompiledFrames

/-- The class of an ELF file. -/
inductive ElfClass where
  | elf32
  | elf64
deriving DecidableEq, Repr

/-- The bytes of an address or offset. -/
def ElfClass.wordSize : ElfClass → Nat
  | elf32 => 4
  | elf64 => 8

/-- Which byte of a number comes first. -/
inductive ByteOrder where
  | leastFirst
  | greatestFirst
deriving DecidableEq, Repr

/-- The number that bytes write. -/
def ByteOrder.number : ByteOrder → List UInt8 → Nat
  | leastFirst, bytes => littleEndian bytes
  | greatestFirst, bytes => littleEndian bytes.reverse

/-- The bytes from an offset on, all of them in the file. -/
def fileSlice? (file : Array UInt8) (offset size : Nat) : Option (List UInt8) :=
  if offset + size ≤ file.size then some (file.extract offset (offset + size)).toList else none

/-- The bytes of a record, whose numbers have some widths. -/
def recordSize (widths : List Nat) : Nat :=
  widths.foldr (· + ·) 0

/-- How the numbers of an ELF file are written. -/
structure ElfEncoding where
  fileClass : ElfClass
  order : ByteOrder
deriving DecidableEq, Repr

namespace ElfEncoding

/-- The encoding that the first sixteen bytes of an ELF file tell. -/
def read? (file : Array UInt8) : Option ElfEncoding := do
  match ← fileSlice? file 0 16 with
  | 0x7f :: 0x45 :: 0x4c :: 0x46 :: classByte :: dataByte :: version :: _ =>
    let fileClass ←
      match classByte with
      | 1 => some ElfClass.elf32
      | 2 => some .elf64
      | _ => none
    let order ←
      match dataByte with
      | 1 => some ByteOrder.leastFirst
      | 2 => some .greatestFirst
      | _ => none
    if version = 1 then some { fileClass, order } else none
  | _ => none

/-- The numbers of a record, whose widths are given. -/
def record? (encoding : ElfEncoding) (file : Array UInt8) :
    (offset : Nat) → (widths : List Nat) → Option (List Nat)
  | _, [] => some []
  | offset, width :: widths => do
    let bytes ← fileSlice? file offset width
    let rest ← encoding.record? file (offset + width) widths
    return encoding.order.number bytes :: rest

/-- The numbers of `count` records, one after the other. -/
def table? (encoding : ElfEncoding) (file : Array UInt8) (offset count : Nat)
    (widths : List Nat) : Option (List (List Nat)) :=
  let size := recordSize widths
  if offset + count * size ≤ file.size then
    (List.range count).mapM fun n => encoding.record? file (offset + n * size) widths
  else none

end ElfEncoding

end CompiledFrames
