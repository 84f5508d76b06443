import CompiledFrames.Elf.Encoding

/-!
# The headers of ELF files

The file header tells the machine and where the tables of program headers and section headers are.
A count or index which does not fit into the file header stands in the first section header.

## Main definitions

* `ElfHeader`, `ElfProgram`, `ElfSection` are the three kinds of headers.
* `ElfHeader.read?`, `ElfHeader.programs?` and `ElfHeader.sections?` read them.
-/

namespace CompiledFrames

/-- A file header, as far as it is needed. -/
structure ElfHeader where
  machine : Nat
  programOffset : Nat
  sectionOffset : Nat
  programSize : Nat
  programCount : Nat
  sectionSize : Nat
  sectionCount : Nat
  /-- The index of the section with the names of sections. -/
  namesIndex : Nat
deriving DecidableEq, Repr

/-- A program header, as far as it is needed: a part of memory. -/
structure ElfProgram where
  kind : Nat
  address : Nat
  size : Nat
deriving DecidableEq, Repr

/-- A section header, as far as it is needed: a part of the file. -/
structure ElfSection where
  kind : Nat
  offset : Nat
  size : Nat
  /-- The index of a section that belongs to this one. -/
  link : Nat
  info : Nat
deriving DecidableEq, Repr

namespace ElfProgram

/-- Whether the part of memory is filled when the file is loaded. -/
def isLoadable (program : ElfProgram) : Bool :=
  program.kind == 1

/-- The widths of the numbers of a program header. -/
def widths : ElfClass → List Nat
  | .elf32 => [4, 4, 4, 4, 4, 4, 4, 4]
  | .elf64 => [4, 4, 8, 8, 8, 8, 8, 8]

/-- The program header that numbers describe. -/
def ofNumbers? : ElfClass → List Nat → Option ElfProgram
  | .elf32, [kind, _, address, _, _, size, _, _] => some { kind, address, size }
  | .elf64, [kind, _, _, address, _, _, size, _] => some { kind, address, size }
  | _, _ => none

end ElfProgram

namespace ElfSection

/-- The kind of the sections with symbols. -/
def symbols : Nat := 2

/-- The kind of the sections with texts. -/
def texts : Nat := 3

/-- The kind of the sections that take up no bytes in the file. -/
def noBytes : Nat := 8

/-- The kind of the sections with the symbols for linking at run time. -/
def dynamicSymbols : Nat := 11

/-- The widths of the numbers of a section header. -/
def widths (fileClass : ElfClass) : List Nat :=
  let word := fileClass.wordSize
  [4, 4, word, word, word, word, 4, 4, word, word]

/-- The section header that numbers describe. -/
def ofNumbers? : List Nat → Option ElfSection
  | [_, kind, _, _, offset, size, link, info, _, _] => some { kind, offset, size, link, info }
  | _ => none

/-- The place after the last byte of the section, if there is such a place. -/
def stop? (part : ElfSection) : Option Nat :=
  if part.offset + part.size < 0x10000000000000000 then some (part.offset + part.size) else none

end ElfSection

namespace ElfHeader

/-- The widths of the numbers behind the first sixteen bytes of a file. -/
def widths (fileClass : ElfClass) : List Nat :=
  let word := fileClass.wordSize
  [2, 2, 4, word, word, word, 4, 2, 2, 2, 2, 2, 2]

/-- The header of a file. -/
def read? (encoding : ElfEncoding) (file : Array UInt8) : Option ElfHeader := do
  match ← encoding.record? file 16 (widths encoding.fileClass) with
  | [_, machine, _, _, programOffset, sectionOffset, _, _, programSize, programCount, sectionSize,
      sectionCount, namesIndex] =>
    some ⟨machine, programOffset, sectionOffset, programSize, programCount, sectionSize,
      sectionCount, namesIndex⟩
  | _ => none

/-- Some section headers, counted from the first one. -/
def firstSections? (header : ElfHeader) (encoding : ElfEncoding) (file : Array UInt8)
    (count : Nat) : Option (List ElfSection) :=
  let widths := ElfSection.widths encoding.fileClass
  if header.sectionSize ≠ recordSize widths then none
  else (encoding.table? file header.sectionOffset count widths).bind
    (·.mapM ElfSection.ofNumbers?)

/-- The first section header; there is none if the file has no section headers. -/
def firstSection? (header : ElfHeader) (encoding : ElfEncoding) (file : Array UInt8) :
    Option ElfSection :=
  if header.sectionOffset = 0 then none
  else (header.firstSections? encoding file 1).bind List.head?

/-- A number of sixteen bits, or what the first section header has in its place if all its bits are
set. -/
def extended? (header : ElfHeader) (encoding : ElfEncoding) (file : Array UInt8) (n : Nat)
    (inSection : ElfSection → Nat) : Option Nat :=
  if n = 0xffff then (header.firstSection? encoding file).map inSection else some n

/-- The program headers. -/
def programs? (header : ElfHeader) (encoding : ElfEncoding) (file : Array UInt8) :
    Option (List ElfProgram) :=
  if header.programOffset = 0 then some []
  else do
    let count ← header.extended? encoding file header.programCount ElfSection.info
    let widths := ElfProgram.widths encoding.fileClass
    if count = 0 then some []
    else if header.programSize ≠ recordSize widths then none
    else
      let table ← encoding.table? file header.programOffset count widths
      table.mapM (ElfProgram.ofNumbers? encoding.fileClass)

/-- The section headers. Their names have to be somewhere. -/
def sections? (header : ElfHeader) (encoding : ElfEncoding) (file : Array UInt8) :
    Option (List ElfSection) :=
  if header.sectionOffset = 0 then some []
  else do
    let count ←
      if header.sectionCount = 0 then (header.firstSection? encoding file).map ElfSection.size
      else some header.sectionCount
    if count = 0 then some []
    else
      let sections ← header.firstSections? encoding file count
      let index ← header.extended? encoding file header.namesIndex ElfSection.link
      if index = 0 then none
      else
        let names ← sections[index]?
        if names.kind ≠ ElfSection.noBytes ∧ names.stop? = none then none else some sections

end ElfHeader

end CompiledFrames
