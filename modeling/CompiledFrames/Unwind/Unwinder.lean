import CompiledFrames.Method.Registry
import CompiledFrames.Symbol.Table
import CompiledFrames.CallingConvention
import CompiledFrames.Unwind.Frame

/-!
# The unwinder

Compiled methods carry no unwind tables. The state of a frame follows from where in the fixed
prologue and epilogue its next instruction is, and the state says where the frame lies and where its
return address is to be found:

* before the frame is allocated, the frame is going to lie below the frame pointer and the return
  address is in its register;
* with the `ret` of an epilogue as the instruction after the next, the frame is taken to lie above
  the frame pointer, and the return address to be in its slot;
* anywhere else the frame lies at the frame pointer and the return address is in its slot.

A return address in a trampoline to the interpreter is replaced by the place in the interpreter that
called compiled code, so that a walk shows how the code was entered.

## Main definitions

* `Unwinder.frameState` classifies a place, `Unwinder.step` unwinds one frame.
* `Unwinder.backtrace` walks the stack.
-/

namespace CompiledFrames

/-- Where in its life a frame is. -/
inductive FrameState where
  /-- The frame is not allocated yet. -/
  | preAlloc
  /-- The return is the instruction after the next. -/
  | epilogue
  | body
deriving DecidableEq, Repr

/-- The name of a frame state. -/
def FrameState.name : FrameState → String
  | preAlloc => "pre-alloc"
  | epilogue => "epilogue"
  | body => "body"

/-- All that unwinding draws on. -/
structure Unwinder where
  convention : CallingConvention
  registry : Registry
  memory : Memory
  symbols : SymbolTable

namespace Unwinder

/-! ## One frame -/

/-- Where in its life the frame of a method is when it executes `pc`. -/
def frameState (u : Unwinder) (m : CompiledMethod) (pc : Address) : FrameState :=
  if pc < m.landmarks.frameAllocated then .preAlloc
  else
    -- an instruction that cannot be read is taken for one of the body
    match u.memory.readBytes (pc + m.shape.instructionWidth) 4 with
    | .ok bytes => if m.shape.isReturn bytes then .epilogue else .body
    | .error _ => .body

/-- Whether a place is in a trampoline to the interpreter. -/
def isTrampoline (u : Unwinder) (a : Address) : Bool :=
  match u.symbols.resolve? a with
  | some symbol => u.convention.isTrampoline symbol.name (some symbol.moduleName)
  | none => false

/-- A return address, or the caller of compiled code in the interpreter if it is in a trampoline. -/
def callSite (u : Unwinder) (returnAddress : Address) : Address :=
  if u.isTrampoline returnAddress then
    match u.symbols.global? u.convention.interpreterSymbol with
    | some interpreter => interpreter + u.convention.reentryOffset.toNat
    | none => returnAddress
  else returnAddress

/-- The address of a frame and the place to which it returns, from the frame pointer. -/
def locate (u : Unwinder) (m : CompiledMethod) (frame : LiveFrame) (state : FrameState)
    (framePointer : Address) : Checked (Address × Address) :=
  match state with
  | .preAlloc => do
    let returnAddress ← Checked.ofExcept (frame.read u.convention.returnAddress)
    return (framePointer - m.frameSize, ⟨returnAddress⟩)
  | .epilogue => fromSlot (framePointer + m.frameSize)
  | .body => fromSlot framePointer
where
  /-- The frame at `cfa`, whose return address is in its slot. -/
  fromSlot (cfa : Address) : Checked (Address × Address) := do
    let offset ← (u.convention.slotOffset m.metadata.frameSlots).mapError Failure.trap
    let returnAddress ← Checked.ofExcept (u.memory.readU64 (cfa + offset))
    return (cfa, ⟨returnAddress⟩)

/-- A frame of a method, unwound. -/
def unwindMethod (u : Unwinder) (m : CompiledMethod) (frame : LiveFrame) (pc : Address) :
    Checked UnwoundFrame := do
  let framePointer ← Checked.ofExcept (frame.read u.convention.framePointer)
  let (cfa, returnAddress) ← u.locate m frame (u.frameState m pc) ⟨framePointer⟩
  let caller := u.callSite returnAddress
  let stackPointer ← Checked.ofExcept (frame.read u.convention.stackPointer)
  -- the order counts when the convention gives two of the roles to one register
  return ({ cfa, pc } : UnwoundFrame)
    |>.save u.convention.framePointer (cfa + m.frameSize).val
    |>.save u.convention.returnAddress caller.val
    |>.save u.convention.programCounter caller.val
    |>.save u.convention.stackPointer stackPointer

/-- A frame with the method that it executes; none if that is no compiled method. -/
def step (u : Unwinder) (frame : LiveFrame) :
    Checked (Option (CompiledMethod × UnwoundFrame)) := do
  let pc : Address := ⟨← Checked.ofExcept (frame.read .pc)⟩
  match u.registry.lookup? pc with
  | none => return none
  | some m => return some (m, ← u.unwindMethod m frame pc)

/-- `step` on registers, where an error means that the frame is not unwound. -/
def attempt (u : Unwinder) (registers : Registers) :
    Except Trap (Option (CompiledMethod × UnwoundFrame)) :=
  match u.step registers.live with
  | .ok unwound => .ok unwound
  | .error (.error _) => .ok none
  | .error (.trap t) => .error t

/-- The frame of some registers, unwound. -/
def unwind (u : Unwinder) (registers : Registers) : Except Trap (Option UnwoundFrame) :=
  (u.attempt registers).map (Option.map (·.2))

/-! ## The walk -/

/-- The frame of a backtrace for an unwound frame. -/
def compiledFrame (u : Unwinder) (index : Nat) (pc : Address) (m : CompiledMethod)
    (unwound : UnwoundFrame) : StackFrame where
  index := index
  pc := pc
  origin :=
    let returnAddress := (unwound.saved? u.convention.returnAddress).map Address.mk
    .compiled unwound.cfa returnAddress m.name (m.locationAt pc)

/-- The frame of a backtrace for a place that is not unwound. -/
def unknownFrame (u : Unwinder) (index : Nat) (pc : Address) : StackFrame where
  index := index
  pc := pc
  origin := .unknown (u.symbols.resolve? pc)

/-- Up to `limit` frames, numbered from `index`. The walk ends at address zero, at a frame that is
not unwound, and where it no longer moves. -/
def walk (u : Unwinder) : (limit index : Nat) → Registers → Except Trap (List StackFrame)
  | 0, _, _ => .ok []
  | limit + 1, index, registers =>
    if registers.pc = ⟨0⟩ then .ok []
    else do
      match ← u.attempt registers with
      | none => return [u.unknownFrame index registers.pc]
      | some (m, unwound) =>
        let frame := u.compiledFrame index registers.pc m unwound
        let caller := registers.setAll unwound.saved
        -- the same registers once more would give the same frame for ever
        if caller = registers then return [frame]
        else return frame :: (← u.walk limit (index + 1) caller)

/-- Up to `limit` frames, the innermost one first. -/
def backtrace (u : Unwinder) (registers : Registers) (limit : Nat) :
    Except Trap (List StackFrame) :=
  u.walk limit 0 registers

/-- The registers of the frame that is `n` frames out, if the walk can reach it. -/
def registersOut (u : Unwinder) : Nat → Registers → Except Trap (Option Registers)
  | 0, registers => .ok (some registers)
  | n + 1, registers => do
    match ← u.unwind registers with
    | none => return none
    | some unwound => u.registersOut n (registers.setAll unwound.saved)

/-- The frame that is `n` frames out, unwound. -/
def unwindOut (u : Unwinder) (n : Nat) (registers : Registers) :
    Except Trap (Option UnwoundFrame) := do
  match ← u.registersOut n registers with
  | none => return none
  | some outer => u.unwind outer

end Unwinder

end CompiledFrames
