/-!
# Options for logging

What may be chosen about the log: the least level of messages, the format, and a file. Names are
read without regard to the case of their letters; ASCII letters are the only characters with a
lower-case form that occurs in a name.

## Main definitions

* `LogLevel.read` and `LogFormat.read` read a choice.
* `logFileName?` is the name of the file that a path leads to.
-/

namespace CompiledFrames

/-- What is wrong with an option for logging. -/
inductive LogProblem where
  | unknownLevel (name : String)
  | unknownFormat (name : String)
  /-- The path of the file does not end in a name. -/
  | noFileName
deriving DecidableEq, Repr

/-- The wording of a problem. -/
def LogProblem.message : LogProblem → String
  | unknownLevel name =>
    "Invalid log level: " ++ name ++ ". Use 'error', 'warn', 'info', 'debug', or 'trace'"
  | unknownFormat name => "Invalid log format: " ++ name ++ ". Use 'pretty' or 'json'"
  | noFileName => "File logging error: log path has no file name"

/-- The least level of messages that are logged. -/
inductive LogLevel where
  | error
  | warn
  | info
  | debug
  | trace
deriving DecidableEq, Repr

namespace LogLevel

/-- The name of a level. -/
def name : LogLevel → String
  | error => "Error"
  | warn => "Warn"
  | info => "Info"
  | debug => "Debug"
  | trace => "Trace"

/-- The level that a person names. -/
def read (text : String) : Except LogProblem LogLevel :=
  match text.toLower with
  | "error" => .ok error
  | "warn" | "warning" => .ok warn
  | "info" => .ok info
  | "debug" => .ok debug
  | "trace" => .ok trace
  | _ => .error (.unknownLevel text)

end LogLevel

/-- The format of the log. -/
inductive LogFormat where
  | pretty
  | json
deriving DecidableEq, Repr

namespace LogFormat

/-- The name of a format. -/
def name : LogFormat → String
  | pretty => "Pretty"
  | json => "Json"

/-- The format that a person names. -/
def read (text : String) : Except LogProblem LogFormat :=
  match text.toLower with
  | "pretty" | "text" => .ok pretty
  | "json" => .ok json
  | _ => .error (.unknownFormat text)

end LogFormat

/-- The parts of a path, but for those which lead nowhere. -/
def pathParts (path : String) : List (List Char) :=
  (path.toList.splitOn '/').filter fun part => part ≠ [] ∧ part ≠ ['.']

/-- The name of the file that a path leads to: its last part, unless that leads upwards. -/
def logFileName? (path : String) : Except LogProblem String :=
  match (pathParts path).getLast? with
  | some part => if part = ['.', '.'] then .error .noFileName else .ok (String.ofList part)
  | none => .error .noFileName

end CompiledFrames
