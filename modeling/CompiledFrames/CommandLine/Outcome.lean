import CompiledFrames.CommandLine.Report
import CompiledFrames.Snapshot.Document

/-!
# The command line

One run of the program, from its arguments to its exit code. The file of the log is looked at before
the snapshot is.

## Main definitions

* `Outcome` is how a run ends, with `Outcome.code`, `Outcome.output` and `Outcome.complaint`.
* `Outcome.ofArguments` is a run.
-/

namespace CompiledFrames

/-- How a run of the program ends. -/
inductive Outcome where
  /-- The command has printed its lines. -/
  | done (lines : List String)
  | version
  | help
  /-- The arguments make no sense. -/
  | misuse
  | badLog (problem : LogProblem)
  | failed (e : Error)
  | trapped (t : Trap)
deriving DecidableEq, Repr

namespace Outcome

/-- The name and version of the program. -/
def versionText : String := "jitwalk 0.0.0"

/-- How the program is used. -/
def usage : List String :=
  ["Usage: jitwalk [OPTIONS] --snapshot <SNAPSHOT> <COMMAND>",
    "",
    "Commands:",
    "  methods [TARGET]    methods at an address or with a name of some kind",
    "  unwind [FRAME]      unwind one frame",
    "  backtrace           walk the stack",
    "  lines <PATTERN>     lines of the methods with a name of some kind",
    "  instructions        instructions of all compile events",
    "",
    "Options:",
    "  -s, --snapshot <SNAPSHOT>",
    "      --max-frames <MAX_FRAMES>",
    "      --helper-module <HELPER_MODULE>",
    "      --log-level <LOG_LEVEL>",
    "      --log-format <LOG_FORMAT>",
    "  -h, --help",
    "  -V, --version"]

/-- The exit code. -/
def code : Outcome → Nat
  | done _ | version | help => 0
  | badLog _ | failed _ => 1
  | misuse => 2
  | trapped _ => 101

/-- Lines of text, each of them ended. -/
def unlines (lines : List String) : String :=
  String.join (lines.map (· ++ "\n"))

/-- What is printed. -/
def output : Outcome → String
  | done lines => unlines lines
  | version => unlines [versionText]
  | help => unlines usage
  | _ => ""

/-- What is printed for errors. -/
def complaint : Outcome → String
  | badLog problem => unlines ["Failed to initialize logging: " ++ problem.message]
  | failed e => unlines ["Error: " ++ e.message]
  | misuse => unlines usage
  | trapped t => unlines [t.message]
  | _ => ""

/-- The settings of the session that the options ask for. -/
def settingsOf (options : CommandOptions) : SessionSettings :=
  let default : SessionSettings := {}
  { maxFrames := options.maxFrames.getD default.maxFrames
    convention :=
      match options.helperModule with
      | some helperModule => { default.convention with helperModule }
      | none => default.convention }

/-- The lines that a command prints about a snapshot in a file. -/
def execute (files : Files) (invocation : Invocation) : Checked (List String) := do
  let snapshot ← Checked.ofExcept (Snapshot.load files invocation.snapshot)
  let session ← Session.ofSnapshot snapshot files (settingsOf invocation.options)
  session.report snapshot invocation.command

/-- A run of the program, with the path of the file of the log if there is one. -/
def ofArguments (files : Files) (logFile : Option String) (arguments : List String) : Outcome :=
  match Invocation.read arguments with
  | .error .version => version
  | .error .help => help
  | .error .misuse => misuse
  | .ok invocation =>
    -- the log comes first: a snapshot is not even looked for without it
    match logFile.mapM logFileName? with
    | .error problem => badLog problem
    | .ok _ =>
      match execute files invocation with
      | .ok lines => done lines
      | .error (.error e) => failed e
      | .error (.trap t) => trapped t

end Outcome

end CompiledFrames
