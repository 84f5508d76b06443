import CompiledFrames.Method.Compiled
import CompiledFrames.Register
import CompiledFrames.Symbol.Basic
import CompiledFrames.Text.Column

/-!
# Stack frames

Frames as the unwinder finds and reports them.

## Main definitions

* `LiveFrame` is a frame whose registers can be asked for.
* `UnwoundFrame` is what unwinding one frame gives: its identity and the registers of its caller.
* `StackFrame` is one line of a backtrace.
-/

namespace CompiledFrames

/-- A frame whose registers can be asked for. -/
structure LiveFrame where
  read : RegisterId → Except Error UInt64

namespace Registers

/-- The frame that has all of the registers. -/
def live (registers : Registers) : LiveFrame :=
  ⟨fun id => .ok (registers.get id)⟩

/-- The frame that has the registers but for some missing ones. -/
def liveWithout (registers : Registers) (missing : List RegisterId) : LiveFrame :=
  ⟨fun id =>
    if id ∈ missing then .error (.unknownRegister id.name) else .ok (registers.get id)⟩

end Registers

/-- A frame that has been unwound. -/
structure UnwoundFrame where
  /-- The canonical frame address: the stack pointer of compiled code in the body of the method. -/
  cfa : Address
  /-- The place that the frame executes. -/
  pc : Address
  /-- Registers of the caller, in the order in which they were found. -/
  saved : List (RegisterId × UInt64) := []
deriving DecidableEq, Repr, Inhabited

namespace UnwoundFrame

/-- The saved registers with one more; a register that is there already keeps its position. -/
def saveIn (register : RegisterId) (value : UInt64) :
    List (RegisterId × UInt64) → List (RegisterId × UInt64)
  | [] => [(register, value)]
  | entry :: rest =>
    if entry.1 = register then (register, value) :: rest
    else entry :: saveIn register value rest

/-- The frame with one more register of its caller. -/
def save (frame : UnwoundFrame) (register : RegisterId) (value : UInt64) : UnwoundFrame :=
  { frame with saved := saveIn register value frame.saved }

/-- The value of a register in the caller, if it is known. -/
def saved? (frame : UnwoundFrame) (register : RegisterId) : Option UInt64 :=
  (frame.saved.find? (·.1 = register)).map (·.2)

theorem find?_saveIn_self (register : RegisterId) (value : UInt64)
    (saved : List (RegisterId × UInt64)) :
    (saveIn register value saved).find? (·.1 = register) = some (register, value) := by
  induction saved with
  | nil => simp [saveIn]
  | cons entry rest ih =>
    unfold saveIn
    split
    case isTrue => simp
    case isFalse hentry => rw [List.find?_cons_of_neg (by simpa using hentry), ih]

theorem find?_saveIn_of_ne {register other : RegisterId} (h : other ≠ register) (value : UInt64)
    (saved : List (RegisterId × UInt64)) :
    (saveIn register value saved).find? (·.1 = other) = saved.find? (·.1 = other) := by
  induction saved with
  | nil => simp [saveIn, h.symm]
  | cons entry rest ih =>
    unfold saveIn
    split
    case isTrue hentry => simp [hentry, h.symm]
    case isFalse => rw [List.find?_cons, List.find?_cons, ih]

@[simp] theorem saved?_save_self (frame : UnwoundFrame) (register : RegisterId) (value : UInt64) :
    (frame.save register value).saved? register = some value := by
  simp only [saved?, save, find?_saveIn_self, Option.map_some]

/-- Saving a register leaves the values of all others as they are. -/
theorem saved?_save_of_ne (frame : UnwoundFrame) {register other : RegisterId}
    (h : other ≠ register) (value : UInt64) :
    (frame.save register value).saved? other = frame.saved? other := by
  simp only [saved?, save, find?_saveIn_of_ne h]

/-- The identity of the frame as text. -/
def text (frame : UnwoundFrame) : String :=
  "<unwind info: CFA " ++ frame.cfa.text ++ " PC " ++ frame.pc.text ++ ">"

end UnwoundFrame

/-- What a frame of a backtrace belongs to. -/
inductive FrameOrigin where
  /-- Compiled code. -/
  | compiled (cfa : Address) (returnAddress : Option Address) (function : String)
      (location : SourceLocation)
  /-- Anything else, with the symbol of its place. -/
  | unknown (symbol : Option NamedPlace)
deriving DecidableEq, Repr

/-- A frame of a backtrace. -/
structure StackFrame where
  /-- The number of the frame, zero being the innermost. -/
  index : Nat
  /-- The place that the frame executes. -/
  pc : Address
  origin : FrameOrigin
deriving DecidableEq, Repr

namespace StackFrame

/-- The canonical frame address of compiled code. -/
def cfa? (frame : StackFrame) : Option Address :=
  match frame.origin with
  | .compiled cfa .. => some cfa
  | .unknown _ => none

/-- The place to which compiled code returns. -/
def returnAddress? (frame : StackFrame) : Option Address :=
  match frame.origin with
  | .compiled _ returnAddress .. => returnAddress
  | .unknown _ => none

/-- The name of the function. -/
def function? (frame : StackFrame) : Option String :=
  match frame.origin with
  | .compiled _ _ function _ => some function
  | .unknown symbol => symbol.map (·.text)

/-- The place in the source, or the file that holds native code. -/
def location? (frame : StackFrame) : Option SourceLocation :=
  match frame.origin with
  | .compiled _ _ _ location => some location
  | .unknown symbol => symbol.map fun s => { file := s.moduleName }

/-- Whether the frame executes compiled code. -/
def isCompiled (frame : StackFrame) : Bool :=
  match frame.origin with
  | .compiled .. => true
  | .unknown _ => false

/-- The frame as a line of a backtrace. -/
def text (frame : StackFrame) : String :=
  let head := "#" ++ Column.left 3 (toString frame.index) ++ " " ++ frame.pc.text ++ " in " ++
    frame.function?.getD "??"
  match frame.location? with
  | some location => head ++ " at " ++ location.text
  | none => head

end StackFrame

end CompiledFrames
