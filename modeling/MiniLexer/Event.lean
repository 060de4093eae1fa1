import MiniLexer.Text.Quoted
import MiniLexer.Token.Kind

/-!
# Log events

A scan accounts for what it does: one event for each token it produces, one for each
character it drops that is not blank, and one at the end. An event is a value; `record`
gives the form it is logged in, where texts and characters appear quoted.
-/

namespace MiniLexer

inductive Event where
  /-- A lexeme was closed and became a token. -/
  | produced (kind : TokenKind) (text : String) (start : UInt32)
  /-- A character that starts no lexeme was dropped; its offset is not reduced to a word. -/
  | skipped (offset : Nat) (character : Char)
  | finished (bytes tokens : Nat)
  deriving DecidableEq, Repr

/-- How much detail a reader of the log must ask for to see an event. -/
inductive LogLevel where
  | debug
  | trace
  deriving DecidableEq, Repr

def LogLevel.name : LogLevel → String
  | debug => "DEBUG"
  | trace => "TRACE"

inductive FieldValue where
  | text (s : String)
  | number (n : Nat)
  deriving DecidableEq, Repr

/-- An event as it is logged: how important it is, who speaks, and what is said. -/
structure LogRecord where
  level : LogLevel
  target : String
  /-- Named values, the message first. -/
  fields : List (String × FieldValue)
  deriving DecidableEq, Repr

namespace Event

/-- The name under which the scanner logs. -/
def target : String := "simple_lexer::lexer"

/-- Only the summary is for those who trace. -/
def level : Event → LogLevel
  | produced .. | skipped .. => .debug
  | finished .. => .trace

/-- What happened, in words that are the same each time. -/
def message : Event → String
  | produced .. => "Produced token"
  | skipped .. => "Skipped unrecognised character"
  | finished .. => "Tokenized source"

/-- What an event says beyond its message. -/
def details : Event → List (String × FieldValue)
  | produced kind text start =>
    [("kind", .text kind.name), ("text", .text (Text.quoteString text)),
     ("start", .number start.toNat)]
  | skipped offset character =>
    [("offset", .number offset), ("ch", .text (Text.quoteChar character))]
  | finished bytes tokens => [("bytes", .number bytes), ("tokens", .number tokens)]

def record (e : Event) : LogRecord where
  level := e.level
  target := target
  fields := ("message", .text e.message) :: e.details

end Event

end MiniLexer
