import CompiledFrames.CommandLine.Outcome

/-!
# The program

Reads the files that the arguments lead to, runs the command line on them, and prints the outcome.
-/

open CompiledFrames

/-- The bytes of a file. -/
def readFile (path : String) : IO (Except FileProblem (Array UInt8)) := do
  try
    return .ok (← IO.FS.readBinFile path).data
  catch
    | .noFileOrDirectory .. => return .error .missing
    | e => return .error (.other (toString e))

/-- Some files with what is in them. -/
def readFiles (paths : List String) : IO Files := do
  let contents ← paths.mapM fun path => return (path, ← readFile path)
  return fun path => (contents.lookup path).getD (.error .missing)

/-- The paths of the images in a snapshot. -/
def imagePaths (files : Files) (path : String) : List String :=
  match Snapshot.load files path with
  | .ok snapshot => snapshot.images.map (·.path)
  | .error _ => []

def main (arguments : List String) : IO UInt32 := do
  let paths ←
    match Invocation.read arguments with
    | .ok invocation =>
      let found ← readFiles [invocation.snapshot]
      pure (invocation.snapshot :: imagePaths found invocation.snapshot)
    | .error _ => pure []
  let files ← readFiles paths
  let outcome := Outcome.ofArguments files (← IO.getEnv "JITWALK_LOG_FILE") arguments
  IO.print outcome.output
  IO.eprint outcome.complaint
  return UInt32.ofNat outcome.code
