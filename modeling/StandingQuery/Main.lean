import StandingQuery.CommandLine.Run

/-! The program: its arguments, the environment and the files go in, an ending comes out. -/

open StandingQuery CommandLine

/-- Reads a file, and sorts what can go wrong. -/
def readRequestFile (path : String) : IO (Except FileFault String) := do
  try
    return textOf (← IO.FS.readBinFile path)
  catch
    | .noFileOrDirectory .. => return .error .notFound
    | .inappropriateType .. => return .error .isDirectory
    | .noSuchThing .. => return .error .notDirectory
    | .invalidArgument _ 36 _ => return .error .nameTooLong
    | e => return .error (.other (toString e))

def main (args : List String) : IO UInt32 := do
  let limit ← IO.getEnv Settings.limitVariable
  let filter ← IO.getEnv Settings.logVariable
  let lookup (name : String) : Option String :=
    if name = Settings.limitVariable then limit
    else if name = Settings.logVariable then filter
    else none
  let file ← match Invocation.ofArguments args with
    | .ok (.message i) => readRequestFile i.path
    | _ => pure (.error .notFound)
  let ending := run lookup (fun _ => file) args
  IO.print ending.output
  for line in ending.errorLines do
    IO.eprintln line
  return ending.code.toUInt32
