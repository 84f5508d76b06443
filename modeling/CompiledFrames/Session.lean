import CompiledFrames.Unwind.Unwinder

/-!
# Sessions

A stopped process under inspection. Compile events fill the registry, and requests to walk the stack
go to the unwinder. What fails for one method is no reason to stop: a method whose record cannot be
decoded is registered without lines. A session is refused only for an architecture whose code has no
known shape.

## Main definitions

* `Session.create` begins a session.
* `Session.compile` and `Session.compileAll` register methods, `Session.reload` reads them again.
* `Session.backtrace`, `Session.registersOut` and `Session.unwindOut` walk the stack.
-/

namespace CompiledFrames

/-- The settings of a session. -/
structure SessionSettings where
  /-- The number of frames after which a backtrace stops. -/
  maxFrames : Nat := 256
  convention : CallingConvention := .riscv64
deriving DecidableEq, Repr, Inhabited

/-- A stopped process under inspection. -/
structure Session where
  settings : SessionSettings
  shape : CodeShape
  registry : Registry
  memory : Memory
  symbols : SymbolTable

namespace Session

/-- A session without methods. The process has to run on the architecture of the calling convention,
and its code has to have a known shape. -/
def create (architecture : Architecture) (memory : Memory) (symbols : SymbolTable)
    (settings : SessionSettings) : Except Error Session :=
  if architecture ≠ settings.convention.architecture then .error (.unsupportedTarget architecture)
  else do
    let shape ← CodeShape.ofArchitecture settings.convention.architecture
    return { settings, shape, registry := {}, memory, symbols }

/-- The session over another memory, with the methods that it has. -/
def withMemory (session : Session) (memory : Memory) : Session :=
  { session with memory }

/-! ## Methods -/

/-- The method of a compile event: with its lines, or without them if its record cannot be decoded.
-/
def methodOf (session : Session) (metadata : MethodMetadata) (bytecodes : BytecodeTable) :
    Except Trap CompiledMethod :=
  match CompiledMethod.build session.memory metadata bytecodes session.shape with
  | .ok m => .ok m
  | .error (.trap t) => .error t
  | .error (.error _) =>
    .ok (CompiledMethod.withoutLines session.memory metadata bytecodes session.shape)

/-- The session with the method of a compile event. It fails if the instructions describe no code,
and then nothing is registered. -/
def compile (session : Session) (event : CompileEvent) : Checked (CompiledMethod × Session) := do
  let bytecodes ← Checked.ofExcept (BytecodeTable.ofInstructions event.instructions)
  let m ← (session.methodOf event.metadata bytecodes).mapError Failure.trap
  return (m, { session with registry := session.registry.register m })

/-- The session with the methods of all events that do not fail, and their number. -/
def compileAll (session : Session) : List CompileEvent → Except Trap (Nat × Session)
  | [] => .ok (0, session)
  | event :: rest =>
    match session.compile event with
    | .ok (_, next) => (next.compileAll rest).map fun (count, last) => (count + 1, last)
    | .error (.error _) => session.compileAll rest
    | .error (.trap t) => .error t

/-- The session with names and lines of all methods read again, and the errors of those that stay as
they were. -/
def reload (session : Session) : Except Trap (Session × List Error) :=
  (session.registry.reload session.memory).map fun (registry, errors) =>
    ({ session with registry }, errors)

/-- The session without methods. -/
def clear (session : Session) : Session :=
  { session with registry := {} }

/-- The method that an address belongs to. -/
def methodAt? (session : Session) (pc : Address) : Option CompiledMethod :=
  session.registry.lookup? pc

/-- The methods with a name of some kind, in the order of their addresses. -/
def methodsNamed (session : Session) (named : String → Bool) : List CompiledMethod :=
  session.registry.methods.filter fun m => named m.name

/-! ## Frames -/

/-- The unwinder of the session. -/
def unwinder (session : Session) : Unwinder where
  convention := session.settings.convention
  registry := session.registry
  memory := session.memory
  symbols := session.symbols

/-- The frames of the stack, as many as the settings allow. -/
def backtrace (session : Session) (registers : Registers) : Except Trap (List StackFrame) :=
  session.unwinder.backtrace registers session.settings.maxFrames

/-- The registers of the frame that is `n` frames out, if the walk can reach it. -/
def registersOut (session : Session) (registers : Registers) (n : Nat) :
    Except Trap (Option Registers) :=
  session.unwinder.registersOut n registers

/-- The frame that is `n` frames out, unwound. -/
def unwindOut (session : Session) (registers : Registers) (n : Nat) :
    Except Trap (Option UnwoundFrame) :=
  session.unwinder.unwindOut n registers

end Session

end CompiledFrames
