import CompiledFrames.MethodRecord.Header
import CompiledFrames.LineTable.DebugInfo

/-!
# Sections of a method record

After the bytecodes a record has up to nine optional sections, in a fixed order and with nothing to
say where they are: the place of a section is known once every section before it has been measured.
A flag announces each section. The flags of the two sections of type annotations are themselves in a
section, the first one.

## Main definitions

* `SectionKind.inOrder` lists the kinds in record order.
* `SectionContent` is what measuring a section learns of it, `SectionContent.size` its extent.
* `MethodRecord.sections` walks the record; `SectionLayout` says where the sections are.
* `MethodRecord.debugInfo` reads the head of the last section.
-/

namespace CompiledFrames

/-- The optional sections. -/
inductive SectionKind where
  | extendedModifiers
  | genericSignature
  | exceptionInfo
  | methodAnnotations
  | parameterAnnotations
  | defaultAnnotation
  | methodTypeAnnotations
  | codeTypeAnnotations
  | debugInfo
deriving DecidableEq, Repr, Inhabited

/-- What is read of a section in order to pass over it. -/
inductive SectionContent where
  /-- One word. -/
  | word (value : UInt32)
  /-- A length in one word, and as many bytes, filled up to a multiple of four. -/
  | block (length : UInt32)
  /-- Two counts in one word, sixteen bytes for each handler, a word for each thrown name. -/
  | exceptions (catchCount throwCount : UInt16)
  /-- The last section, after which nothing is to be found. -/
  | last
deriving DecidableEq, Repr

/-- The bytes that a section takes up. -/
def SectionContent.size : SectionContent → Nat
  | word _ => 4
  | block length => roundUp4 (length.toNat + 4)
  | exceptions catchCount throwCount => 4 + catchCount.toNat * 16 + throwCount.toNat * 4
  | last => 0

namespace SectionKind

/-- The kinds in record order. -/
def inOrder : List SectionKind :=
  [extendedModifiers, genericSignature, exceptionInfo, methodAnnotations, parameterAnnotations,
    defaultAnnotation, methodTypeAnnotations, codeTypeAnnotations, debugInfo]

/-- The name of a section. -/
def name : SectionKind → String
  | extendedModifiers => "extended modifiers"
  | genericSignature => "generic signature"
  | exceptionInfo => "exception info"
  | methodAnnotations => "method annotations"
  | parameterAnnotations => "parameter annotations"
  | defaultAnnotation => "default annotation"
  | methodTypeAnnotations => "method type annotations"
  | codeTypeAnnotations => "code type annotations"
  | debugInfo => "debug info"

/-- Whether the flags announce a section. -/
def announced (modifiers : Modifiers) (extended : ExtendedModifiers) : SectionKind → Bool
  | extendedModifiers => modifiers.has Modifiers.extendedModifiers
  | genericSignature => modifiers.has Modifiers.genericSignature
  | exceptionInfo => modifiers.has Modifiers.exceptionInfo
  | methodAnnotations => modifiers.has Modifiers.methodAnnotations
  | parameterAnnotations => modifiers.has Modifiers.parameterAnnotations
  | defaultAnnotation => modifiers.has Modifiers.defaultAnnotation
  | methodTypeAnnotations => extended.has ExtendedModifiers.methodTypeAnnotations
  | codeTypeAnnotations => extended.has ExtendedModifiers.codeTypeAnnotations
  | debugInfo => modifiers.has Modifiers.debugInfo

/-- A block of bytes after its length; its last byte has to be there. -/
def readBlock (memory : Memory) (a : Address) : Except Error SectionContent := do
  let length ← memory.readU32 a
  if length ≠ 0 then
    let _ ← memory.readU8 (a + 4 + (length.toNat - 1))
  return .block length

/-- Exception handlers and thrown names after their counts; the last byte has to be there. -/
def readExceptions (memory : Memory) (a : Address) : Except Error SectionContent := do
  let catchCount ← memory.readU16 a
  let throwCount ← memory.readU16 (a + 2)
  let content := SectionContent.exceptions catchCount throwCount
  if 4 < content.size then
    let _ ← memory.readU8 (a + (content.size - 1))
  return content

/-- What is at an address, read as a section of this kind. -/
def read (kind : SectionKind) (memory : Memory) (a : Address) : Except Error SectionContent :=
  match kind with
  | extendedModifiers | genericSignature => (memory.readU32 a).map .word
  | exceptionInfo => readExceptions memory a
  | methodAnnotations | parameterAnnotations | defaultAnnotation | methodTypeAnnotations
  | codeTypeAnnotations => readBlock memory a
  | debugInfo => .ok .last

end SectionKind

/-- A section with its place. -/
structure PlacedSection where
  kind : SectionKind
  address : Address
  content : SectionContent
deriving DecidableEq, Repr

/-- The extended flags once a section has been passed: those that it holds, or those before it. -/
def PlacedSection.extended (placed : PlacedSection) (before : ExtendedModifiers) :
    ExtendedModifiers :=
  match placed.kind, placed.content with
  | .extendedModifiers, .word value => .ofWord value
  | _, _ => before

/-- Exception handlers and thrown names of a method. -/
structure ExceptionInfo where
  address : Address
  catchCount : UInt16
  throwCount : UInt16
deriving DecidableEq, Repr

/-- The bytes that the exception information takes up. -/
def ExceptionInfo.size (info : ExceptionInfo) : Nat :=
  (SectionContent.exceptions info.catchCount info.throwCount).size

/-- Where the sections of a record are. -/
structure SectionLayout where
  /-- The address of the record. -/
  record : Address
  /-- The sections that the record has, in record order. -/
  sections : List PlacedSection
deriving DecidableEq, Repr

namespace SectionLayout

/-- The place of a section, if the record has it. -/
def address? (layout : SectionLayout) (kind : SectionKind) : Option Address :=
  (layout.sections.find? (·.kind = kind)).map (·.address)

/-- The distance of a section from the start of the record; a section that wraps around to a place
below the record has none. -/
def offset? (layout : SectionLayout) (kind : SectionKind) : Option Nat :=
  (layout.address? kind).bind (·.distance? layout.record)

/-- The extended flags, none if the record has no such word. -/
def extended (layout : SectionLayout) : ExtendedModifiers :=
  layout.sections.foldl (fun before placed => placed.extended before) .none

/-- The exception information, if the record has it. -/
def exceptions? (layout : SectionLayout) : Option ExceptionInfo :=
  layout.sections.findSome? fun placed =>
    match placed.content with
    | .exceptions catchCount throwCount => some ⟨placed.address, catchCount, throwCount⟩
    | _ => none

end SectionLayout

namespace MethodRecord

/-- The error for a section which is announced and cannot be read. -/
def unreadable (record : MethodRecord) (kind : SectionKind) (e : Error) : Error :=
  .malformedRecord ("method record at " ++ record.address.text)
    (kind.name ++ " flagged present but unreadable: " ++ e.message)

/-- The sections of the given kinds, the first of which begins at `cursor`. -/
def walk (record : MethodRecord) (memory : Memory) :
    List SectionKind → Address → ExtendedModifiers → Except Error (List PlacedSection)
  | [], _, _ => .ok []
  | kind :: kinds, cursor, extended =>
    if kind.announced record.modifiers extended then do
      let content ← (kind.read memory cursor).mapError (record.unreadable kind)
      let placed : PlacedSection := ⟨kind, cursor, content⟩
      -- only now is it known whether there are type annotations
      let rest ← record.walk memory kinds (cursor + content.size) (placed.extended extended)
      return placed :: rest
    else record.walk memory kinds cursor extended

/-- The sections of the record. -/
def sections (record : MethodRecord) (memory : Memory) : Except Error SectionLayout :=
  (record.walk memory SectionKind.inOrder record.sectionsStart .none).map (⟨record.address, ·⟩)

/-- The head of the debug information, if the record has it. -/
def debugInfo (record : MethodRecord) (memory : Memory) : Except Error (Option DebugInfo) := do
  let layout ← record.sections memory
  match layout.address? .debugInfo with
  | none => return none
  | some address =>
    return some (← (DebugInfo.read memory address).mapError (record.unreadable .debugInfo))

end MethodRecord

end CompiledFrames
