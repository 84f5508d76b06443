import CompiledFrames.LogOptions
import CompiledFrames.Text.Numeral

/-!
# The arguments of the command line

Options come first, then the name of a command, then its arguments. Reading goes from left to right
and ends at the first fault; a request for the version or for help that comes before it is granted.

* An option may be given once. Its value is the next argument, which must not look like an option
  itself, or follows an equals sign; the value of a short option may follow it at once.
* Behind `--` nothing is an option any more.

## Main definitions

* `Command` is a command with its arguments, `Invocation` adds the options.
* `Invocation.read` reads the arguments.
-/

namespace CompiledFrames

/-- What the command line can do. -/
inductive Command where
  /-- List the methods at an address or with a name of some kind, or the one being executed. -/
  | methods (target : Option String)
  /-- Unwind a frame. -/
  | unwind (frame : Nat)
  /-- Walk the stack. -/
  | backtrace
  /-- List the lines of the methods with a name of some kind. -/
  | lines (pattern : String)
  /-- List the instructions of all compile events. -/
  | instructions
deriving DecidableEq, Repr

/-- The options, as far as they are given. -/
structure CommandOptions where
  snapshot : Option String := none
  maxFrames : Option Nat := none
  helperModule : Option String := none
  logLevel : Option LogLevel := none
  logFormat : Option LogFormat := none
deriving DecidableEq, Repr, Inhabited

/-- What the arguments of the command line ask for. -/
structure Invocation where
  /-- The path of the snapshot. -/
  snapshot : String
  options : CommandOptions
  command : Command
deriving DecidableEq, Repr

/-- Why there is nothing to be done. -/
inductive NoInvocation where
  /-- The version is to be shown. -/
  | version
  /-- Help is to be shown. -/
  | help
  /-- The arguments make no sense. -/
  | misuse
deriving DecidableEq, Repr

/-- The result of reading arguments. -/
abbrev Parsed (α : Type) :=
  Except NoInvocation α

/-- A value that is needed. -/
def Parsed.ofOption {α : Type} : Option α → Parsed α
  | some a => .ok a
  | none => .error .misuse

/-- Whether an argument is an option, or `--`. A single dash is neither. -/
def isOption (argument : String) : Bool :=
  match argument.toList with
  | '-' :: _ :: _ => true
  | _ => false

/-- A number below `2 ^ 64`. -/
def readCount? (text : String) : Option Nat :=
  Numeral.read? 10 UInt64.size text

/-! ## Options -/

/-- An option. -/
inductive CommandOption where
  | snapshot
  | maxFrames
  | helperModule
  | logLevel
  | logFormat
  | version
  | help
deriving DecidableEq, Repr

namespace CommandOption

/-- The option of a long name. -/
def ofLong? : String → Option CommandOption
  | "snapshot" => some snapshot
  | "max-frames" => some maxFrames
  | "helper-module" => some helperModule
  | "log-level" => some logLevel
  | "log-format" => some logFormat
  | "version" => some version
  | "help" => some help
  | _ => none

/-- The option of a short name. -/
def ofShort? : Char → Option CommandOption
  | 's' => some snapshot
  | 'V' => some version
  | 'h' => some help
  | _ => none

/-- Puts a value into a place that is empty. -/
def fill? {α : Type} (place : Option α) (value : Option α) : Option (Option α) :=
  match place, value with
  | none, some a => some (some a)
  | _, _ => none

/-- The options with a value for one of them, which is not given yet. -/
def put (option : CommandOption) (value : String) (options : CommandOptions) :
    Parsed CommandOptions :=
  match option with
  | snapshot => Parsed.ofOption do
    return { options with
      snapshot := ← fill? options.snapshot (if value = "" then none else some value) }
  | maxFrames => Parsed.ofOption do
    return { options with maxFrames := ← fill? options.maxFrames (readCount? value) }
  | helperModule => Parsed.ofOption do
    return { options with helperModule := ← fill? options.helperModule (some value) }
  | logLevel => Parsed.ofOption do
    return { options with logLevel := ← fill? options.logLevel (LogLevel.read value).toOption }
  | logFormat => Parsed.ofOption do
    return { options with logFormat := ← fill? options.logFormat (LogFormat.read value).toOption }
  | version | help => .error .misuse

end CommandOption

/-- An argument that is an option, with the value that it has itself. -/
def readOption? (argument : String) : Option (CommandOption × Option String) :=
  match argument.toList with
  | '-' :: '-' :: name => do
    let option ← CommandOption.ofLong? (String.ofList (name.takeWhile (· ≠ '=')))
    match name.dropWhile (· ≠ '=') with
    | [] => some (option, none)
    | _ :: value => some (option, some (String.ofList value))
  | '-' :: letter :: rest => do
    let option ← CommandOption.ofShort? letter
    if option = .version ∨ option = .help then some (option, none)
    else
      match rest with
      | [] => some (option, none)
      | '=' :: value => some (option, some (String.ofList value))
      | value => some (option, some (String.ofList value))
  | _ => none

/-! ## Commands -/

/-- The name of a command. -/
inductive CommandName where
  | methods
  | unwind
  | backtrace
  | lines
  | instructions
deriving DecidableEq, Repr

namespace CommandName

/-- The command that an argument names. -/
def read? : String → Option CommandName
  | "methods" => some methods
  | "unwind" => some unwind
  | "backtrace" => some backtrace
  | "lines" => some lines
  | "instructions" => some instructions
  | _ => none

/-- Whether the arguments of a command may begin like this. -/
def admits : CommandName → List String → Bool
  | _, [] => true
  | methods, [_] => true
  | unwind, [frame] => (readCount? frame).isSome
  | lines, [_] => true
  | _, _ => false

/-- The command with its arguments. -/
def command? : CommandName → List String → Option Command
  | methods, [] => some (.methods none)
  | methods, [target] => some (.methods (some target))
  | unwind, [] => some (.unwind 0)
  | unwind, [frame] => (readCount? frame).map .unwind
  | backtrace, [] => some .backtrace
  | lines, [pattern] => some (.lines pattern)
  | instructions, [] => some .instructions
  | _, _ => none

/-- The command, from its arguments that have been read and the rest of the command line. -/
def readArguments (name : CommandName) : (given : List String) → List String → Parsed Command
  | given, [] => Parsed.ofOption (name.command? given)
  | given, argument :: rest =>
    if argument = "--" then Parsed.ofOption (name.command? (given ++ rest))
    else if isOption argument then
      match readOption? argument with
      | some (.help, none) => .error .help
      | _ => .error .misuse
    else if name.admits (given ++ [argument]) then name.readArguments (given ++ [argument]) rest
    else .error .misuse

end CommandName

/-! ## The command line -/

namespace Invocation

/-- Whether there is help on some arguments. -/
def isHelpTopic : List String → Bool
  | [] => true
  | [name] => name == "help" || (CommandName.read? name).isSome
  | _ => false

/-- The options and the command, from the options that have been read and the rest of the command
line. -/
def readFrom : CommandOptions → List String → Parsed (CommandOptions × Command)
  | _, [] => .error .misuse
  | options, argument :: rest =>
    if isOption argument then
      match readOption? argument, rest with
      | some (.version, none), _ => .error .version
      | some (.help, none), _ => .error .help
      | some (option, some value), rest => do readFrom (← option.put value options) rest
      | some (option, none), value :: rest => do
        if isOption value then .error .misuse
        else readFrom (← option.put value options) rest
      | _, _ => .error .misuse
    else
      match CommandName.read? argument with
      | some name => (name.readArguments [] rest).map fun command => (options, command)
      | none => .error (if argument = "help" && isHelpTopic rest then .help else .misuse)

/-- What the arguments of the command line ask for. The snapshot has to be given. -/
def read (arguments : List String) : Parsed Invocation := do
  let (options, command) ← readFrom {} arguments
  return { snapshot := ← Parsed.ofOption options.snapshot, options, command }

end Invocation

end CompiledFrames
