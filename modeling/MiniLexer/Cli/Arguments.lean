/-!
# Command line arguments

Arguments are read from left to right, and the first one that settles the outcome does so:
a fault, or a request for the version or the help. An option's value is attached to it or is
the next argument; as the next argument it must not look like an option itself. A lone
hyphen is an operand, and after `--` everything is. Operands name files, so none is empty.
-/

namespace MiniLexer.Cli

/-- The options that take a value. -/
inductive Setting where
  /-- A script given in place, any number of times. -/
  | script
  /-- What to log, at most once. The log is no part of what a run prints. -/
  | filter
  deriving DecidableEq, Repr

inductive Fault where
  | unknownOption (option : String)
  /-- No value follows, or what follows looks like an option. -/
  | missingValue (setting : Setting)
  /-- A value is attached to an option that takes none. -/
  | unexpectedValue (option : String)
  /-- The log filter is given twice. -/
  | repeatedFilter
  /-- An operand is the empty string and so names no file. -/
  | emptyOperand
  deriving DecidableEq, Repr

/-- The options and operands of a run, each sort in the order of the arguments. -/
structure Options where
  scripts : List String := []
  files : List String := []
  filter : Option String := none
  deriving DecidableEq, Repr

inductive Request where
  | run (options : Options)
  | version
  | help
  deriving DecidableEq, Repr

/-! ## One argument -/

/-- An argument by its form. -/
inductive Argument where
  | endOfOptions
  /-- It is `--name` or `--name=value`. -/
  | long (name : String) (value : Option String)
  /-- It is a hyphen and a letter, perhaps with more behind them. -/
  | short (letter : Char) (rest : List Char)
  /-- It is anything else: a lone hyphen, the empty string, a name. -/
  | operand (text : String)
  deriving DecidableEq, Repr

/-- The argument that a hyphen pair and these characters make. -/
def Argument.ofLong (cs : List Char) : Argument :=
  let name := String.ofList (cs.takeWhile (· ≠ '='))
  match cs.dropWhile (· ≠ '=') with
  | [] => .long name none
  | _ :: value => .long name (some (String.ofList value))

def Argument.ofString (arg : String) : Argument :=
  match arg.toList with
  | ['-', '-'] => .endOfOptions
  | '-' :: '-' :: cs => .ofLong cs
  | '-' :: c :: cs => .short c cs
  | _ => .operand arg

/-! ## All arguments -/

namespace Options

def set (o : Options) (setting : Setting) (value : String) : Except Fault Options :=
  match setting with
  | .script => .ok { o with scripts := o.scripts ++ [value] }
  | .filter =>
    match o.filter with
    | none => .ok { o with filter := some value }
    | some _ => .error .repeatedFilter

def addFile (o : Options) (path : String) : Except Fault Options :=
  if path = "" then .error .emptyOperand else .ok { o with files := o.files ++ [path] }

def addFiles (o : Options) : List String → Except Fault Options
  | [] => .ok o
  | path :: paths =>
    match o.addFile path with
    | .ok o => o.addFiles paths
    | .error fault => .error fault

end Options

/-- What reading one argument comes to. -/
inductive Reading where
  /-- The argument settles what is asked for, and none after it is looked at. -/
  | answer (request : Request)
  /-- The next argument adds to these options; it is a setting's value if one is pending. -/
  | more (options : Options) (pending : Option Setting)
  /-- All arguments from here on are operands. -/
  | operands (options : Options)
  deriving DecidableEq, Repr

/-- Sets an option to an attached value, or lets it wait for one. -/
def Options.setOrWait (o : Options) (setting : Setting) : Option String → Except Fault Reading
  | some value =>
    match o.set setting value with
    | .ok o => .ok (.more o none)
    | .error fault => .error fault
  | none => .ok (.more o (some setting))

/-- Reads a flag that answers at once. It takes no value. -/
def readFlag (option : String) (request : Request) : Option String → Except Fault Reading
  | none => .ok (.answer request)
  | some _ => .error (.unexpectedValue option)

/-- Reads an argument that no option waits for. -/
def readArgument (o : Options) : Argument → Except Fault Reading
  | .endOfOptions => .ok (.operands o)
  | .long name value =>
    match name with
    | "script" => o.setOrWait .script value
    | "log" => o.setOrWait .filter value
    | "version" => readFlag "--version" .version value
    | "help" => readFlag "--help" .help value
    | _ => .error (.unknownOption ("--" ++ name))
  | .short letter rest =>
    match letter, rest with
    | 's', [] => o.setOrWait .script none
    | 's', '=' :: value => o.setOrWait .script (some (String.ofList value))
    | 's', value => o.setOrWait .script (some (String.ofList value))
    | 'V', _ => .ok (.answer .version)
    | 'h', _ => .ok (.answer .help)
    | _, _ => .error (.unknownOption (String.ofList ['-', letter]))
  | .operand path =>
    match o.addFile path with
    | .ok o => .ok (.more o none)
    | .error fault => .error fault

/-- Reads an argument that an option waits for: only an operand can be its value. -/
def readValue (o : Options) (setting : Setting) : Argument → Except Fault Reading
  | .operand value => o.setOrWait setting (some value)
  | .endOfOptions | .long .. | .short .. => .error (.missingValue setting)

/-- Reads the arguments that follow those which gave the options so far. -/
def parseFrom (o : Options) (pending : Option Setting) : List String → Except Fault Request
  | [] =>
    match pending with
    | some setting => .error (.missingValue setting)
    | none => .ok (.run o)
  | arg :: args =>
    let reading :=
      match pending with
      | some setting => readValue o setting (.ofString arg)
      | none => readArgument o (.ofString arg)
    match reading with
    | .error fault => .error fault
    | .ok (.answer request) => .ok request
    | .ok (.more o pending) => parseFrom o pending args
    | .ok (.operands o) =>
      match o.addFiles args with
      | .ok o => .ok (.run o)
      | .error fault => .error fault

def parse (args : List String) : Except Fault Request := parseFrom {} none args

/-- The files that a run with these arguments would read. -/
def operands (args : List String) : List String :=
  match parse args with
  | .ok (.run o) => o.files
  | .ok .version | .ok .help | .error _ => []

/-! ## What a fault is called -/

def Setting.name : Setting → String
  | script => "--script"
  | filter => "--log"

def Fault.message : Fault → String
  | unknownOption option => "unknown option '" ++ option ++ "'"
  | missingValue setting => "option '" ++ setting.name ++ "' needs a value"
  | unexpectedValue option => "option '" ++ option ++ "' takes no value"
  | repeatedFilter => "option '--log' is given more than once"
  | emptyOperand => "a file name is empty"

end MiniLexer.Cli
