import MiniLexer.Cli.Run

/-!
# The program

Reads the files that the arguments name, asks the library what the run comes to, and prints
it.
-/

namespace MiniLexer.Cli

/-- The reason behind an error of the operating system. -/
def ReadFailure.ofError : IO.Error → ReadFailure
  | .noFileOrDirectory .. => .missing
  | .inappropriateType _ _ details =>
    if details.toLower = "is a directory" then .directory else .behindFile
  | .permissionDenied .. => .denied
  | e => .other e.toString

/-- Reads a file as text. -/
def readFile (path : String) : IO (Except ReadFailure String) := do
  try
    return decodeText (← IO.FS.readBinFile path)
  catch e =>
    return .error (.ofError e)

end MiniLexer.Cli

/-- Runs the program and ends with its code. -/
def main (args : List String) : IO UInt32 := do
  let contents ← (MiniLexer.Cli.operands args).mapM fun path => do
    return (path, ← MiniLexer.Cli.readFile path)
  let read := fun path => (contents.lookup path).getD (.error .missing)
  let outcome := MiniLexer.Cli.run read args
  (← IO.getStdout).putStr outcome.stdout
  (← IO.getStderr).putStr outcome.stderr
  return outcome.code
