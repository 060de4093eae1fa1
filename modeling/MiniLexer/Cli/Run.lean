import MiniLexer.Cli.Arguments
import MiniLexer.Cli.ReadFailure
import MiniLexer.Tokenize

/-!
# A run of the program

What a run prints and the code it ends with, as a function of its arguments and of what its
files hold. All files are read before anything is printed, so a run either lists every
source or reports the first file that cannot be read, and nothing else.
-/

namespace MiniLexer.Cli

/-- What a run leaves behind. -/
structure Outcome where
  /-- The code it ends with. -/
  code : UInt32
  /-- What it prints. -/
  stdout : String
  /-- What it prints for errors. -/
  stderr : String
  deriving DecidableEq, Repr

/-! ## Listing sources -/

/-- The sources listed when none are given. -/
def demoSources : List String :=
  ["int age = 45;", "inta age = 45;", "age >= 45;", "age > 45;"]

/-- A source and the table of its tokens. -/
def block (source : String) : String :=
  "parse:\t" ++ source ++ "\n" ++ "text\ttype\n" ++
    String.join ((tokenize source).rows.map (· ++ "\n"))

/-- The blocks of the sources with an empty line between two. -/
def listing (sources : List String) : String := "\n".intercalate (sources.map block)

/-- The listing of a run's sources, or of the demonstration if it has none. -/
def report (sources : List String) : String :=
  listing (if sources.isEmpty then demoSources else sources)

/-! ## Loading files -/

/-- The contents of the files in order, or the error of the first that cannot be read. -/
def load (read : String → Except ReadFailure String) : List String → Except Cause (List String)
  | [] => .ok []
  | path :: paths =>
    match read path with
    | .error failure => .error (.sourceUnreadable path failure.message)
    | .ok source =>
      match load read paths with
      | .ok sources => .ok (source :: sources)
      | .error cause => .error cause

/-! ## The run -/

/-- The name and version of the program. -/
def versionLine : String := "simple_lexer 0.1.0\n"

/-- How the program is called. -/
def usage : String := "Usage: simple_lexer [OPTIONS] [FILE]...\n"

/-- What the program is for and what it can be told. -/
def helpText : String :=
  "Tokenize mini-language scripts and dump the tokens\n\n" ++ usage ++
  "\nArguments:\n" ++
  "  [FILE]...  Script files to tokenize\n" ++
  "\nOptions:\n" ++
  "  -s, --script <SOURCE>  Inline script to tokenize, may be repeated\n" ++
  "      --log <FILTER>     Log filter used when RUST_LOG is not set [default: warn]\n" ++
  "  -h, --help             Print help\n" ++
  "  -V, --version          Print version\n"

/-- Lists the scripts and then the files. -/
def runWith (read : String → Except ReadFailure String) (o : Options) : Outcome :=
  match load read o.files with
  | .ok sources => ⟨0, report (o.scripts ++ sources), ""⟩
  | .error cause => ⟨1, "", cause.headline⟩

/-- A run with the given arguments, where `read` says what the files hold. It ends with code 2
if the arguments are at fault and with code 1 if a file cannot be read. -/
def run (read : String → Except ReadFailure String) (args : List String) : Outcome :=
  match parse args with
  | .ok (.run o) => runWith read o
  | .ok .version => ⟨0, versionLine, ""⟩
  | .ok .help => ⟨0, helpText, ""⟩
  | .error fault => ⟨2, "", "error: " ++ fault.message ++ "\n\n" ++ usage⟩

end MiniLexer.Cli
