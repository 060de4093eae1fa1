import MiniLexer.Automaton
import MiniLexer.Event
import MiniLexer.TokenStream.Basic

/-!
# Tokenizing a source

One pass over the characters of a source, driven by the automaton. The scanner holds the
open lexeme in pieces: its text so far, the kind it has for now and the offset it began at.
A lexeme is closed by the character after it, or by the end of the input, and only then
becomes a token. The tokens and the log are filled side by side and neither is computed
from the other.

Scanning never fails. A character that can start no lexeme is dropped. A scan is made
for the tokens of a source, given as a stream (`tokenize`), and for the account of how they were
found (`events`).
-/

namespace MiniLexer

/-- What a scan has found so far, and the lexeme it is in the middle of. -/
structure Scanner where
  state : ScanState := .initial
  buffer : String := ""
  /-- Kind of the open lexeme, as far as it is known. -/
  kind : Option TokenKind := none
  /-- Offset of the open lexeme, or of the last one if none is open. -/
  start : Nat := 0
  tokens : Array Token := #[]
  log : Array Event := #[]
  deriving DecidableEq, Repr

namespace Scanner

def emit (s : Scanner) (token : Token) : Scanner :=
  { s with
    tokens := s.tokens.push token
    log := s.log.push (.produced token.kind token.text token.span.start) }

/-- Closes the open lexeme, as one of the given kind if there is one, else of the kind it
has. Nothing stays open, and without a text or a kind nothing is emitted. -/
def close (s : Scanner) (reclassified : Option TokenKind) : Scanner :=
  let rest := { s with buffer := "", kind := none }
  match reclassified <|> s.kind with
  | some kind => if s.buffer.isEmpty then rest else rest.emit (.ofText kind s.buffer s.start)
  | none => rest

/-- Drops a character; one that is not blank is logged. -/
def drop (s : Scanner) (offset : Nat) (c : Char) : Scanner :=
  match CharClass.ofChar c with
  | .blank => s
  | .letter | .digit | .other => { s with log := s.log.push (.skipped offset c) }

/-- Does what an action says with the character at the given offset. -/
def act (s : Scanner) (offset : Nat) (c : Char) : Action → Scanner
  | .start kind => { s with buffer := s.buffer.push c, kind := some kind, start := offset }
  | .extend => { s with buffer := s.buffer.push c }
  | .extendAs kind => { s with buffer := s.buffer.push c, kind := some kind }
  | .close => s.close none
  | .closeAs kind => s.close (some kind)
  | .skip => s.drop offset c

def follow (s : Scanner) (offset : Nat) (c : Char) (edge : Edge) : Scanner :=
  { s.act offset c edge.action with state := edge.next }

def step (s : Scanner) (offset : Nat) (c : Char) : Scanner :=
  (route s.state c).foldl (fun s edge => s.follow offset c edge) s

/-- Reads the characters of a text that begins at the given offset. -/
def feed (s : Scanner) (offset : Nat) : List Char → Scanner
  | [] => s
  | c :: cs => (s.step offset c).feed (offset + c.utf8Size) cs

/-- Dropping a character tells on the log at most. -/
theorem drop_eq (s : Scanner) (k : Nat) (c : Char) : ∃ log, s.drop k c = { s with log := log } := by
  unfold drop
  split
  · exact ⟨s.log, rfl⟩
  all_goals exact ⟨_, rfl⟩

theorem step_of_not_closes {s : Scanner} {c : Char} (k : Nat)
    (h : (transition s.state c).action.closes = false) :
    s.step k c = s.follow k c (transition s.state c) := by
  simp [step, route_of_not_closes h]

/-- A character that ends a lexeme takes two: the closing edge and then one that opens a
lexeme or drops the character. -/
theorem step_of_closes {s : Scanner} {c : Char} (k : Nat)
    (h : (transition s.state c).action.closes = true) :
    s.step k c = (s.follow k c (transition s.state c)).follow k c (openingEdge c) := by
  simp [step, route_of_closes h, transition]

/-- Closes the lexeme that the end of the input leaves open. -/
def finish (s : Scanner) : Scanner :=
  match endOfInput s.state with
  | .closeAs kind => s.close (some kind)
  | .skip => s
  | .start _ | .extend | .extendAs _ | .close => s.close none

def scan (source : String) : Scanner := (({} : Scanner).feed 0 source.toList).finish

end Scanner

/-- The tokens of a source, ready to be read from the first. -/
def tokenize (source : String) : TokenStream := .ofTokens (Scanner.scan source).tokens

/-- The log of one scan: what the scanner noted, and a summary last. -/
def events (source : String) : Array Event :=
  let scanned := Scanner.scan source
  scanned.log.push (.finished source.utf8ByteSize scanned.tokens.size)

/-- One row for each token that a stream has left, in order. -/
def TokenStream.rows (s : TokenStream) : List String := s.rest.1.toList.map Token.row

end MiniLexer
