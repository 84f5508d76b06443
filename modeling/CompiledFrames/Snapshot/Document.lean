import CompiledFrames.Document.Decoding
import CompiledFrames.Json.Layout
import CompiledFrames.Snapshot.Basic
import CompiledFrames.Text.HexBytes

/-!
# Snapshots as documents

A snapshot is kept in a file as a text, in JSON if nothing else is said. Addresses and values of
registers are numbers, bytes of memory hexadecimal text. Whatever a snapshot does not mention is
empty.

## Main definitions

* `Snapshot.ofText` reads a snapshot, `Snapshot.toText` writes it.
* `Snapshot.load` reads a snapshot from a file.
-/

namespace CompiledFrames

/-! ## Reading -/

/-- A field whose value goes into a record in some way. -/
def RecordField.of {ρ α : Type} (name : String) (value : Document → Decoded α) (put : α → ρ → ρ)
    (isOptional : Bool := false) : RecordField ρ where
  name := name
  read document record := (value document).map fun a => put a record
  isOptional := isOptional

namespace Document

/-- An address. -/
def address (document : Document) : Decoded Address :=
  document.word64.map Address.mk

/-- An architecture. -/
def architecture (document : Document) : Decoded Architecture :=
  document.choice ([.riscv64, .arm64, .x86_64].map fun a : Architecture => (a.name, a))

/-- Bytes in hexadecimal. -/
def bytes (document : Document) : Decoded (Array UInt8) := do
  return (← HexBytes.decode (← document.string "a string")).toArray

/-- A segment of memory. -/
def segment : Document → Decoded Segment :=
  record ⟨"SnapshotSegment",
    [.of "base" address fun base s => { s with base },
      .of "bytes" bytes fun bytes s => { s with bytes }]⟩ default

/-- A symbol, whose size may be left out. -/
def symbol : Document → Decoded Symbol :=
  record ⟨"SymbolEntry",
    [.of "name" (string "a string") fun name s => { s with name },
      .of "address" address fun address s => { s with address },
      .of "size" word64 (fun size s => { s with size }) true]⟩ default

/-- The symbols of a module. -/
def listing : Document → Decoded SymbolListing :=
  record ⟨"SnapshotModule",
    [.of "module" (string "a string") fun moduleName l => { l with moduleName },
      .of "symbols" (sequence symbol) fun symbols l => { l with symbols }]⟩ default

/-- An image. -/
def image : Document → Decoded BinaryImage :=
  record ⟨"ImageDescriptor",
    [.of "path" (string "path string") fun path i => { i with path },
      .of "load_address" address fun loadAddress i => { i with loadAddress }]⟩ default

/-- The description of a compiled method. -/
def metadata : Document → Decoded MethodMetadata :=
  record ⟨"CompiledMethodMetadata",
    [.of "start_pc" address fun start m => { m with start },
      .of "end_pc" address fun stop m => { m with stop },
      .of "total_frame_size" word32 fun frameSlots m => { m with frameSlots },
      .of "slots" word32 fun paramSlots m => { m with paramSlots },
      .of "class_name" address fun className m => { m with className },
      .of "method_name" address fun methodName m => { m with methodName },
      .of "method_signature" address fun signature m => { m with signature },
      .of "ram_method" address fun linkedMethod m => { m with linkedMethod }]⟩ default

/-- An instruction. -/
def instruction : Document → Decoded Instruction :=
  record ⟨"Instruction",
    [.of "pc" address fun pc i => { i with pc },
      .of "length" word32 fun length i => { i with length },
      .of "bytecode_index" word32 fun bytecodeIndex i => { i with bytecodeIndex }]⟩ default

/-- A compile event. -/
def event : Document → Decoded CompileEvent :=
  record ⟨"CompileEvent",
    [.of "metadata" metadata fun metadata e => { e with metadata },
      .of "instructions" (sequence instruction) fun instructions e => { e with instructions }]⟩
    default

end Document

/-- What a document says about a snapshot. -/
structure SnapshotFile where
  architecture : Architecture
  /-- The values of registers by name, in the order of the names. -/
  registers : List (String × UInt64) := []
  segments : List Segment := []
  listings : List SymbolListing := []
  images : List BinaryImage := []
  events : List CompileEvent := []
deriving DecidableEq, Repr, Inhabited

/-- The values with one more, in the order of the names; it replaces a value of the same name. -/
def putByName {α : Type} (name : String) (value : α) : List (String × α) → List (String × α)
  | [] => [(name, value)]
  | (other, old) :: rest =>
    if name < other then (name, value) :: (other, old) :: rest
    else if name = other then (name, value) :: rest
    else (other, old) :: putByName name value rest

/-- Values in the order of their names, where of several values with a name the last one counts. -/
def sortByName {α : Type} (values : List (String × α)) : List (String × α) :=
  values.foldl (fun sorted (name, value) => putByName name value sorted) []

/-- The contents of a snapshot. Only the architecture has to be there. -/
def Document.snapshotFile : Document → Decoded SnapshotFile :=
  record ⟨"SnapshotFile",
    [.of "architecture" architecture fun architecture f => { f with architecture },
      .of "registers" (mapping word64)
        (fun registers f => { f with registers := sortByName registers }) true,
      .of "memory" (sequence segment) (fun segments f => { f with segments }) true,
      .of "symbols" (sequence listing) (fun listings f => { f with listings }) true,
      .of "images" (sequence image) (fun images f => { f with images }) true,
      .of "compile_events" (sequence event) (fun events f => { f with events }) true]⟩
    { architecture := default }

namespace Snapshot

/-- The snapshot that the contents of a file describe. -/
def ofFile (file : SnapshotFile) : Except Error Snapshot := do
  let registers ← Registers.ofNamed file.registers
  return {
    architecture := file.architecture
    registers
    memory := .ofSegments file.segments
    listings := file.listings
    images := file.images
    events := file.events }

/-- The snapshot that a text describes. -/
def ofText (text : String) (format : DocumentFormat := .json) : Except Error Snapshot := do
  ofFile (← (format.decode Document.snapshotFile text).mapError Error.snapshot)

/-- The snapshot in a file. -/
def load (files : Files) (path : String) (format : DocumentFormat := .json) :
    Except Error Snapshot := do
  let bytes ← (files path).mapError Error.file
  match Utf8.decode? bytes.toList with
  | some text => ofText text format
  | none => .error (.file .notText)

end Snapshot

/-! ## Writing -/

namespace Document

/-- A whole number. -/
def ofNat (n : Nat) : Document := .number (.whole n)

/-- A text. -/
def ofString (value : String) : Document := .text (some value)

/-- A sequence of values. -/
def ofList {α : Type} (item : α → Document) (values : List α) : Document :=
  .array (values.map item) true

/-- An object. -/
def ofFields (fields : List (String × Document)) : Document :=
  .object (fields.map fun (name, value) => (some name, value)) true

/-- A segment of memory. -/
def ofSegment (s : Segment) : Document :=
  ofFields [("base", ofNat s.base.toNat), ("bytes", ofString (HexBytes.encode s.bytes.toList))]

/-- A symbol. -/
def ofSymbol (s : Symbol) : Document :=
  ofFields [("name", ofString s.name), ("address", ofNat s.address.toNat),
    ("size", ofNat s.size.toNat)]

/-- The symbols of a module. -/
def ofListing (l : SymbolListing) : Document :=
  ofFields [("module", ofString l.moduleName), ("symbols", ofList ofSymbol l.symbols)]

/-- An image. -/
def ofImage (i : BinaryImage) : Document :=
  ofFields [("path", ofString i.path), ("load_address", ofNat i.loadAddress.toNat)]

/-- The description of a compiled method. -/
def ofMetadata (m : MethodMetadata) : Document :=
  ofFields [("start_pc", ofNat m.start.toNat), ("end_pc", ofNat m.stop.toNat),
    ("total_frame_size", ofNat m.frameSlots.toNat), ("slots", ofNat m.paramSlots.toNat),
    ("class_name", ofNat m.className.toNat), ("method_name", ofNat m.methodName.toNat),
    ("method_signature", ofNat m.signature.toNat), ("ram_method", ofNat m.linkedMethod.toNat)]

/-- An instruction. -/
def ofInstruction (i : Instruction) : Document :=
  ofFields [("pc", ofNat i.pc.toNat), ("length", ofNat i.length.toNat),
    ("bytecode_index", ofNat i.bytecodeIndex.toNat)]

/-- A compile event. -/
def ofEvent (e : CompileEvent) : Document :=
  ofFields [("metadata", ofMetadata e.metadata),
    ("instructions", ofList ofInstruction e.instructions)]

end Document

namespace Snapshot

/-- The registers that are not zero, in the order of their names. -/
def namedRegisters (snapshot : Snapshot) : List (String × UInt64) :=
  sortByName
    ((Registers.ids.map fun id => (id.name, snapshot.registers.get id)).filter (·.2 ≠ 0))

/-- The document that describes a snapshot. -/
def toDocument (snapshot : Snapshot) : Document :=
  .ofFields [("architecture", .ofString snapshot.architecture.name),
    ("registers",
      .ofFields (snapshot.namedRegisters.map fun (name, value) => (name, .ofNat value.toNat))),
    ("memory", .ofList .ofSegment snapshot.memory.segments),
    ("symbols", .ofList .ofListing snapshot.listings),
    ("images", .ofList .ofImage snapshot.images),
    ("compile_events", .ofList .ofEvent snapshot.events)]

/-- The text that describes a snapshot. -/
def toText (snapshot : Snapshot) (format : DocumentFormat := .json) : Except Error String :=
  (format.write snapshot.toDocument).mapError Error.snapshot

/-- The JSON text that describes a snapshot. -/
def text (snapshot : Snapshot) : String :=
  snapshot.toDocument.layout

end Snapshot

end CompiledFrames
