import CompiledFrames.CommandLine.Arguments
import CompiledFrames.Pattern.Text
import CompiledFrames.Snapshot.Basic

/-!
# Reports

What the commands print: lines of text about a session.

## Main definitions

* `Session.report` is what a command prints.
-/

namespace CompiledFrames

namespace Report

/-- The address that a text writes: in hexadecimal behind `0x`, in decimal otherwise. -/
def address? (text : String) : Option Address :=
  let number :=
    match text.toList with
    | '0' :: 'x' :: digits | '0' :: 'X' :: digits =>
      Numeral.read? 16 UInt64.size (String.ofList digits)
    | _ => Numeral.read? 10 UInt64.size text
  number.map Address.ofNat

/-- The pattern that a text writes. -/
def pattern (text : String) : Except Error Pattern :=
  match Pattern.ofText? text with
  | some p => .ok p
  | none => .error (.invalidArgument ("invalid pattern " ++ Quoted.quote text))

/-- The lines for each of some methods, or one that says that there is none. -/
def eachMethod (methods : List CompiledMethod) (lines : CompiledMethod → List String) :
    List String :=
  if methods.isEmpty then ["No method found."] else methods.flatMap lines

/-- The methods at an address or with a name of some kind, or the one being executed. -/
def methods (session : Session) (pc : Address) (target : Option String) :
    Except Error (List CompiledMethod) :=
  match target with
  | none => .ok (session.methodAt? pc).toList
  | some text =>
    match address? text with
    | some a => .ok (session.methodAt? a).toList
    | none => (pattern text).map fun p => session.methodsNamed p.occursIn

/-- A frame that has been unwound, with the registers of its caller. -/
def unwound : Option UnwoundFrame → List String
  | none => ["No unwinder succeeded"]
  | some frame =>
    frame.text :: frame.saved.map fun (register, value) =>
      "  " ++ Column.left 4 register.name ++ " " ++ (Address.mk value).text

/-- A frame of the stack, with the place of its data if that is known. -/
def frame (f : StackFrame) : List String :=
  match f.cfa? with
  | none => [f.text]
  | some cfa =>
    let caller :=
      match f.returnAddress? with
      | some a => " ra " ++ a.text
      | none => ""
    [f.text, "     cfa " ++ cfa.text ++ caller]

/-- An instruction with its line. -/
def lineRow (row : LineRow) : String :=
  let flags := (if row.isStatement then ["stmt"] else []) ++
    if row.isPrologueEnd then ["prologue_end"] else []
  "  " ++ row.pc.text ++ "  line " ++ Column.left 5 (toString row.line) ++ " " ++
    " ".intercalate flags

/-- The lines of a method. -/
def methodLines (m : CompiledMethod) : List String :=
  (m.text ++ " (" ++ m.sourceFile ++ ")") ::
    match m.lineRows with
    | .ok rows => rows.map lineRow
    | .error _ => ["  no line information"]

/-- An instruction. -/
def instruction (i : Instruction) : String :=
  "  " ++ i.pc.text ++ "  len " ++ Column.right 2 (toString i.length) ++ "  bci " ++
    Column.right 4 (toString i.bytecodeIndex) ++ if i.isPseudo then " (pseudo)" else ""

/-- The instructions of a compile event. -/
def event (e : CompileEvent) : List String :=
  (e.metadata.start.shortText ++ " - " ++ e.metadata.stop.shortText ++ " (" ++
      toString e.instructions.length ++ " instructions)") ::
    e.instructions.map instruction

end Report

/-- The lines that a command prints, for a session over a snapshot. -/
def Session.report (session : Session) (snapshot : Snapshot) (command : Command) :
    Checked (List String) := do
  match command with
  | .methods target =>
    let methods ← Checked.ofExcept (Report.methods session snapshot.registers.pc target)
    return Report.eachMethod methods fun m => [m.text]
  | .unwind n =>
    return Report.unwound (← (session.unwindOut snapshot.registers n).mapError Failure.trap)
  | .backtrace =>
    let frames ← (session.backtrace snapshot.registers).mapError Failure.trap
    return frames.flatMap Report.frame
  | .lines text =>
    let pattern ← Checked.ofExcept (Report.pattern text)
    return Report.eachMethod (session.methodsNamed pattern.occursIn) Report.methodLines
  | .instructions => return snapshot.events.flatMap Report.event

end CompiledFrames
