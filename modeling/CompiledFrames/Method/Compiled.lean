import CompiledFrames.LineTable.Basic
import CompiledFrames.Method.Metadata
import CompiledFrames.Prologue

/-!
# Compiled methods

All that is known of a compiled method. The bytecode table comes from the compiler and the line
table from the record of the method in memory, so a method without a readable record still has its
place, its frame and its bytecode table.

## Main definitions

* `CompiledMethod.build` reads names and lines from memory, `CompiledMethod.withoutLines` does
  without lines, `CompiledMethod.rebuild` reads again.
* `CompiledMethod.lineAt` and `CompiledMethod.locationAt` tell where in the source an address is.
* `CompiledMethod.lineRows` lists the lines of all instructions, one instruction after the other.
-/

namespace CompiledFrames

/-- A place in the source: a file, and a line if it is known. -/
structure SourceLocation where
  file : String
  line : Option Int := none
deriving DecidableEq, Repr, Inhabited

/-- The text of a place in the source. -/
def SourceLocation.text (location : SourceLocation) : String :=
  match location.line with
  | some line => location.file ++ ":" ++ toString line
  | none => location.file

/-- The line of an instruction. -/
structure LineRow where
  line : Int
  pc : Address
  /-- Whether the instruction belongs to the body of the method. -/
  isStatement : Bool
  /-- Whether the body begins here. -/
  isPrologueEnd : Bool
deriving DecidableEq, Repr

/-- A list of rows in the making. -/
structure LineListing where
  /-- The place of the next instruction. -/
  pc : Address
  /-- The rows so far, the last one first. -/
  rows : List LineRow
deriving DecidableEq, Repr

/-- A compiled method. -/
structure CompiledMethod where
  metadata : MethodMetadata
  names : MethodNames
  bytecodes : BytecodeTable
  lines : Option LineTable
  shape : CodeShape
deriving DecidableEq, Repr, Inhabited

namespace CompiledMethod

/-! ## Building -/

/-- The method with the names and lines that memory holds. -/
def build (memory : Memory) (metadata : MethodMetadata) (bytecodes : BytecodeTable)
    (shape : CodeShape) : Checked CompiledMethod := do
  let names ← Checked.ofExcept (MethodNames.read memory metadata)
  let record ← Checked.ofExcept (metadata.record memory)
  let lines ←
    match ← Checked.ofExcept (record.debugInfo memory) with
    | some info => LineTable.read memory info names.qualified
    | none => pure none
  return { metadata, names, bytecodes, lines, shape }

/-- The method with the names and lines that memory holds, from the report of the compiler. -/
def ofEvent (memory : Memory) (event : CompileEvent) (shape : CodeShape) :
    Checked CompiledMethod := do
  let bytecodes ← Checked.ofExcept (BytecodeTable.ofInstructions event.instructions)
  build memory event.metadata bytecodes shape

/-- The method without lines, under placeholder names if its own cannot be read. -/
def withoutLines (memory : Memory) (metadata : MethodMetadata) (bytecodes : BytecodeTable)
    (shape : CodeShape) : CompiledMethod :=
  let names :=
    match MethodNames.read memory metadata with
    | .ok names => names
    | .error _ => .placeholder metadata
  { metadata, names, bytecodes, lines := none, shape }

/-- The method with names and lines read again. -/
def rebuild (m : CompiledMethod) (memory : Memory) : Checked CompiledMethod :=
  build memory m.metadata m.bytecodes m.shape

/-! ## What is known of a method -/

/-- The place of the first instruction. -/
def start (m : CompiledMethod) : Address := m.metadata.start

/-- The place after the last instruction. -/
def stop (m : CompiledMethod) : Address := m.metadata.stop

/-- The full name. -/
def name (m : CompiledMethod) : String := m.names.qualified

/-- The file that the class was compiled from. -/
def sourceFile (m : CompiledMethod) : String := m.names.className ++ ".java"

/-- The landmarks of the code. -/
def landmarks (m : CompiledMethod) : Landmarks :=
  m.shape.landmarks m.start m.metadata.paramSlots

/-- The bytes of the frame: its slots and the return address. -/
def frameSize (m : CompiledMethod) : Nat :=
  let word := m.shape.architecture.pointerSize
  m.metadata.frameSlots.toNat * word + word

/-- Place and name of the method. -/
def text (m : CompiledMethod) : String :=
  m.start.shortText ++ " - " ++ m.stop.shortText ++ " '" ++ m.name ++ "'"

/-! ## Lines -/

/-- The error for a method without lines. -/
def noLines (m : CompiledMethod) : Error :=
  .notFound ("no line information for " ++ m.name)

/-- The line of the instruction at `pc`. -/
def lineAt (m : CompiledMethod) (pc : Address) : Except Error Int :=
  match m.lines with
  | none => .error m.noLines
  | some lines => do
    let bytecode ← m.bytecodes.get pc
    lines.get bytecode.toNat

/-- The place in the source of the instruction at `pc`. -/
def locationAt (m : CompiledMethod) (pc : Address) : SourceLocation where
  file := m.sourceFile
  line := (m.lineAt pc).toOption

/-- The row of the instruction at `pc`, if its line is known. -/
def lineRow? (m : CompiledMethod) (pc : Address) : Option LineRow :=
  (m.lineAt pc).toOption.map fun line =>
    { line, pc
      isStatement := m.landmarks.frameBuilt ≤ pc
      isPrologueEnd := pc = m.landmarks.frameBuilt }

/-- The listing with the row of the next instruction, unless that is past the end of the method. -/
def listNext? (m : CompiledMethod) (listing : LineListing) : Option LineListing :=
  if listing.pc < m.stop then
    some ⟨listing.pc + m.shape.instructionWidth, (m.lineRow? listing.pc).toList ++ listing.rows⟩
  else none

/-- The rows of a listing that has gone on as long as there is a next instruction. Addresses wrap
around, so that there may be one forever. -/
def listAll (m : CompiledMethod) (listing : LineListing) : List LineRow :=
  Id.run <| listing |> repeatM fun listing =>
    match m.listNext? listing with
    | some next => pure (.inl next)
    | none => pure (.inr listing.rows.reverse)

theorem listAll_eq (m : CompiledMethod) (listing : LineListing) :
    m.listAll listing =
      match m.listNext? listing with
      | some next => m.listAll next
      | none => listing.rows.reverse := by
  unfold listAll
  rw [repeatM_eq_of_monadTail]
  cases hnext : m.listNext? listing with
  | none =>
    simp only [repeatM.body, hnext]
    rfl
  | some next =>
    simp only [repeatM.body, hnext]
    rfl

/-- The lines of all instructions, in the order of their addresses. -/
def lineRows (m : CompiledMethod) : Except Error (List LineRow) :=
  match m.lines with
  | none => .error m.noLines
  | some _ => .ok (m.listAll ⟨m.start, []⟩)

end CompiledMethod

end CompiledFrames
