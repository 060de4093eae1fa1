import MiniLexer.Text.Quoted
import MiniLexer.Token.Kind

/-!
# Errors

Scanning never fails; errors come from reading the tokens of a stream and from loading a
source. An error is a cause and the byte it stands at. Its message quotes the text it is
about, its tip shows that text bare.
-/

namespace MiniLexer

inductive Cause where
  /-- A token stood where another kind was wanted. -/
  | unexpectedToken (token : String) (expected : TokenKind)
  /-- The tokens ended where one was wanted. -/
  | unexpectedEnd (expected : TokenKind)
  /-- A source could not be loaded. -/
  | sourceUnreadable (path reason : String)
  deriving DecidableEq, Repr

/-- What a reader of the error might do about it. -/
inductive Tip where
  | none
  | suggestion (text : String)
  deriving DecidableEq, Repr

/-- The words of a tip; there are none where there is no tip. -/
def Tip.text : Tip → String
  | none => ""
  | suggestion text => text

namespace Cause

def name : Cause → String
  | unexpectedToken .. => "UnexpectedToken"
  | unexpectedEnd .. => "UnexpectedEndOfStream"
  | sourceUnreadable .. => "SourceUnreadable"

/-- The error in one line. Texts from outside are quoted, so the line tells which they are. -/
def message : Cause → String
  | unexpectedToken token expected =>
    "unexpected token " ++ Text.quoteString token ++ ": expected " ++ expected.name
  | unexpectedEnd expected => "unexpected end of stream: expected " ++ expected.name
  | sourceUnreadable path reason => "cannot read " ++ Text.quoteString path ++ ": " ++ reason

/-- Advice for the author of the script. Every cause has some. -/
def tip : Cause → Tip
  | unexpectedToken token expected =>
    .suggestion ("Unexpected token: `" ++ token ++ "`, expected " ++ expected.name)
  | unexpectedEnd expected => .suggestion ("Input ended, expected " ++ expected.name)
  | sourceUnreadable path reason =>
    .suggestion ("Could not read `" ++ path ++ "`: " ++ reason)

/-- The line that announces an error: its name, and its tip if it has one. -/
def headline (c : Cause) : String :=
  match c.tip with
  | .none => "Error: " ++ c.name ++ "\n"
  | .suggestion text => "Error: " ++ c.name ++ " (" ++ text ++ ")\n"

end Cause

/-- A cause and the byte of the source it stands at. -/
structure Error where
  cause : Cause
  position : UInt32
  deriving DecidableEq, Repr

namespace Error

def name (e : Error) : String := e.cause.name

def message (e : Error) : String := e.cause.message

def tip (e : Error) : Tip := e.cause.tip

end Error

end MiniLexer
