import CompiledFrames.BytecodeTable
import CompiledFrames.MethodRecord.Sections

/-!
# Compile events

What the compiler reports when it has compiled a method: where the code lies, how large its frame
is, where the names of the method are, and the instructions.

## Main definitions

* `MethodMetadata` describes a compiled method, `CompileEvent` adds its instructions.
* `MethodNames.read` reads the names, `MethodNames.placeholder` stands in for unreadable ones.
-/

namespace CompiledFrames

/-- The description of a compiled method. -/
structure MethodMetadata where
  /-- The place of the first instruction. -/
  start : Address
  /-- The place after the last instruction. -/
  stop : Address
  /-- The slots of the frame, without the return address. -/
  frameSlots : UInt32
  /-- The slots that the parameters take up. -/
  paramSlots : UInt32
  /-- The place of the name of the class. -/
  className : Address
  /-- The place of the name of the method. -/
  methodName : Address
  /-- The place of the signature. -/
  signature : Address
  /-- The place of the linked method, whose first word is the place of the bytecodes. -/
  linkedMethod : Address
deriving DecidableEq, Repr, Inhabited

namespace MethodMetadata

/-- Whether an instruction of the method is at `pc`. -/
def Contains (metadata : MethodMetadata) (pc : Address) : Prop :=
  metadata.start ≤ pc ∧ pc < metadata.stop

instance (metadata : MethodMetadata) (pc : Address) : Decidable (metadata.Contains pc) :=
  inferInstanceAs (Decidable (_ ∧ _))

/-- The record of the method. -/
def record (metadata : MethodMetadata) (memory : Memory) : Except Error MethodRecord := do
  let bytecodes ← memory.readU64 metadata.linkedMethod
  MethodRecord.ofBytecodes memory ⟨bytecodes⟩

end MethodMetadata

/-- The report of a compiled method. -/
structure CompileEvent where
  metadata : MethodMetadata
  instructions : List Instruction
deriving DecidableEq, Repr, Inhabited

/-- The names of a method. -/
structure MethodNames where
  className : String
  methodName : String
  signature : String
deriving DecidableEq, Repr, Inhabited

namespace MethodNames

/-- The names that the description of a method leads to. -/
def read (memory : Memory) (metadata : MethodMetadata) : Except Error MethodNames := do
  let className ← memory.readText metadata.className
  let methodName ← memory.readText metadata.methodName
  let signature ← memory.readText metadata.signature
  return { className, methodName, signature }

/-- Names for a method whose own cannot be read: the place of its code tells it apart. -/
def placeholder (metadata : MethodMetadata) : MethodNames where
  className := "<unknown>"
  methodName := "jit_" ++ Numeral.hex metadata.start.toNat
  signature := ""

/-- The full name: class, method and signature. -/
def qualified (names : MethodNames) : String :=
  names.className ++ "." ++ names.methodName ++ names.signature

end MethodNames

end CompiledFrames
