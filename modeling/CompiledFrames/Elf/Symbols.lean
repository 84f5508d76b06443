import CompiledFrames.Elf.Header

/-!
# The symbols of ELF files

A symbol table is a section of symbols. Their names are in a section of texts, each with a zero byte
behind it.

## Main definitions

* `ElfSymbol` is an entry of a symbol table.
* `ElfSymbol.readAll?` reads the first symbol table of some kind, with the names.
-/

namespace CompiledFrames

/-- An entry of a symbol table, as far as it is needed. -/
structure ElfSymbol where
  /-- The name, if it can be read. -/
  name : Option String
  kind : Nat
  /-- The index of the section that defines the symbol. -/
  definedIn : Nat
  value : Nat
  size : Nat
deriving DecidableEq, Repr

namespace ElfSymbol

/-- Whether the file defines the symbol. Reserved indices stand for no section, with the exception
of the one for an index that does not fit. -/
def isDefined (symbol : ElfSymbol) : Bool :=
  symbol.definedIn != 0 && (symbol.definedIn < 0xff00 || symbol.definedIn == 0xffff)

/-- The text that begins at an offset of a section of texts. -/
def text? (file : Array UInt8) (texts : ElfSection) (offset : Nat) : Option String :=
  if texts.size < offset then none
  else do
    let bytes ← fileSlice? file (texts.offset + offset) (texts.size - offset)
    if 0 ∈ bytes then Utf8.decode? (bytes.takeWhile (· ≠ 0)) else none

/-- The widths of the numbers of a symbol. -/
def widths : ElfClass → List Nat
  | .elf32 => [4, 4, 4, 1, 1, 2]
  | .elf64 => [4, 1, 1, 2, 8, 8]

/-- The symbol that numbers describe. -/
def ofNumbers? (name : Nat → Option String) : ElfClass → List Nat → Option ElfSymbol
  | .elf32, [nameOffset, value, size, info, _, definedIn] =>
    some { name := name nameOffset, kind := info % 16, definedIn, value, size }
  | .elf64, [nameOffset, info, _, definedIn, value, size] =>
    some { name := name nameOffset, kind := info % 16, definedIn, value, size }
  | _, _ => none

/-- The symbols of a section, but for the first one, which stands for no symbol. -/
def readTable? (encoding : ElfEncoding) (file : Array UInt8) (sections : List ElfSection)
    (part : ElfSection) : Option (List ElfSymbol) := do
  let widths := widths encoding.fileClass
  if part.size % recordSize widths ≠ 0 then none
  else
    let table ← encoding.table? file part.offset (part.size / recordSize widths) widths
    let texts ← sections[part.link]?
    if texts.kind ≠ ElfSection.texts ∨ texts.stop? = none then none
    else (table.drop 1).mapM (ofNumbers? (text? file texts) encoding.fileClass)

/-- The symbols of the first section of some kind. -/
def readAll? (encoding : ElfEncoding) (file : Array UInt8) (sections : List ElfSection)
    (kind : Nat) : Option (List ElfSymbol) :=
  match sections.find? (·.kind == kind) with
  | some part => readTable? encoding file sections part
  | none => some []

end ElfSymbol

end CompiledFrames
