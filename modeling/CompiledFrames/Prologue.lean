import CompiledFrames.Error

/-!
# Prologues and epilogues

Compiled methods begin and end with fixed sequences of instructions, so that the landmarks of a
method follow from its start and the number of its parameter slots alone. On riscv64 the prologue is

* a load for each parameter slot, up to the entry for calls from compiled code;
* the spill of the return address and the allocation of the frame, two instructions;
* the check of the stack limit, two instructions;

and every return destroys the frame, reloads the return address and jumps: `addi`, `ld`, `ret`.

## Main definitions

* `CodeShape` is a shape of compiled code, `CodeShape.ofArchitecture` the one of an
  architecture.
* `CodeShape.landmarks` computes the landmarks of a method, `Landmarks.stateAt` tells how far the
  prologue has come at an address.
* `CodeShape.isReturn` recognises the last instruction of an epilogue.
-/

namespace CompiledFrames

/-- The places in a method where the state of its frame changes. -/
structure Landmarks where
  /-- The start of the method. -/
  entry : Address
  /-- The entry for calls from compiled code, after the loads of parameters. -/
  jitEntry : Address
  /-- The first instruction with the frame allocated. -/
  frameAllocated : Address
  /-- The first instruction after the check of the stack limit. -/
  stackChecked : Address
  /-- The first instruction of the body. -/
  frameBuilt : Address
deriving DecidableEq, Repr, Inhabited

/-- How far the prologue has come. -/
inductive PrologueState where
  | entry
  | jitEntry
  | frameAllocated
  | frameBuilt
deriving DecidableEq, Repr

/-- The name of a prologue state. -/
def PrologueState.name : PrologueState → String
  | entry => "entry"
  | jitEntry => "jit-entry"
  | frameAllocated => "frame-allocated"
  | frameBuilt => "frame-built"

/-- The states in the order in which a method passes them. -/
def PrologueState.rank : PrologueState → Nat
  | entry => 0
  | jitEntry => 1
  | frameAllocated => 2
  | frameBuilt => 3

instance : LE PrologueState := ⟨fun s t => s.rank ≤ t.rank⟩

instance (s t : PrologueState) : Decidable (s ≤ t) :=
  inferInstanceAs (Decidable (s.rank ≤ t.rank))

/-- How far the prologue has come before the instruction at `pc`. -/
def Landmarks.stateAt (landmarks : Landmarks) (pc : Address) : PrologueState :=
  if pc < landmarks.jitEntry then .entry
  else if pc < landmarks.frameAllocated then .jitEntry
  else if pc < landmarks.frameBuilt then .frameAllocated
  else .frameBuilt

/-- A shape of compiled code. -/
inductive CodeShape where
  | riscv64
deriving DecidableEq, Repr, Inhabited

namespace CodeShape

/-- The architecture whose code has the shape. -/
def architecture : CodeShape → Architecture
  | riscv64 => .riscv64

/-- The bytes of an instruction. -/
def instructionWidth : CodeShape → Nat
  | riscv64 => 4

/-- The landmarks of a method. -/
def landmarks (shape : CodeShape) (start : Address) (paramSlots : UInt32) : Landmarks :=
  let width := shape.instructionWidth
  let jitEntry : Address := start + paramSlots.toNat * width
  let frameAllocated : Address := jitEntry + 2 * width
  let stackChecked : Address := frameAllocated + 2 * width
  { entry := start, jitEntry, frameAllocated, stackChecked, frameBuilt := stackChecked }

/-- The bytes of the instruction that ends an epilogue. -/
def returnInstruction : CodeShape → List UInt8
  | riscv64 => [0x67, 0x80, 0x00, 0x00]

/-- Whether the bytes of an instruction end an epilogue. -/
def isReturn (shape : CodeShape) (instruction : List UInt8) : Bool :=
  instruction == shape.returnInstruction

/-- The shape of compiled code on an architecture. -/
def ofArchitecture : Architecture → Except Error CodeShape
  | .riscv64 => .ok .riscv64
  | other => .error (.unsupportedTarget other)

end CodeShape

end CompiledFrames
