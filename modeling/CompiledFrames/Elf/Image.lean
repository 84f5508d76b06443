import CompiledFrames.Elf.Symbols
import CompiledFrames.ObjectFile

/-!
# ELF files

What an ELF file says about itself, and how this is said of object files in general.

## Main definitions

* `ElfFile.read?` reads a file.
* `ElfFile.toObject` is what it says, `ObjectFormat.elf` the format.
-/

namespace CompiledFrames

/-- A part of memory as object files have it. -/
def ElfProgram.toObject (program : ElfProgram) : ObjectSegment where
  address := .ofNat program.address
  size := UInt64.ofNat program.size

/-- A symbol as object files have it. -/
def ElfSymbol.toObject (symbol : ElfSymbol) : ObjectSymbol where
  name := symbol.name
  kind := if symbol.kind = 1 then .data else if symbol.kind = 2 then .code else .other
  isDefined := symbol.isDefined
  address := .ofNat symbol.value
  size := UInt64.ofNat symbol.size

/-- The contents of an ELF file. -/
structure ElfFile where
  encoding : ElfEncoding
  header : ElfHeader
  programs : List ElfProgram
  symbols : List ElfSymbol
  /-- The symbols for linking at run time. -/
  dynamicSymbols : List ElfSymbol
deriving DecidableEq, Repr

namespace ElfFile

/-- The contents of a file. -/
def read? (file : Array UInt8) : Option ElfFile := do
  let encoding ← ElfEncoding.read? file
  let header ← ElfHeader.read? encoding file
  let programs ← header.programs? encoding file
  let sections ← header.sections? encoding file
  let symbols ← ElfSymbol.readAll? encoding file sections ElfSection.symbols
  let dynamicSymbols ← ElfSymbol.readAll? encoding file sections ElfSection.dynamicSymbols
  return { encoding, header, programs, symbols, dynamicSymbols }

/-- The machine that a file was built for. -/
def machine (elf : ElfFile) : ObjectMachine :=
  match elf.header.machine, elf.encoding.fileClass with
  | 243, .elf64 => .known .riscv64
  | 183, .elf64 => .known .arm64
  | 62, .elf64 => .known .x86_64
  | 243, .elf32 => .other "Riscv32"
  | 183, .elf32 => .other "Aarch64_Ilp32"
  | 62, .elf32 => .other "X86_64_X32"
  | 40, _ => .other "Arm"
  | 3, _ => .other "I386"
  | 8, .elf64 => .other "Mips64"
  | 22, .elf64 => .other "S390x"
  | 258, .elf64 => .other "LoongArch64"
  | 247, _ => .other "Bpf"
  | _, _ => .other "Unknown"

/-- What a file says about itself. Of its segments, these are the ones that are filled. -/
def toObject (elf : ElfFile) : ObjectFile where
  machine := elf.machine
  segments := (elf.programs.filter ElfProgram.isLoadable).map ElfProgram.toObject
  symbols := elf.symbols.map ElfSymbol.toObject
  dynamicSymbols := elf.dynamicSymbols.map ElfSymbol.toObject

end ElfFile

/-- The format of ELF files. -/
def ObjectFormat.elf : ObjectFormat where
  read file := (ElfFile.read? file).map ElfFile.toObject

end CompiledFrames
