import MiniLexer.CharClass
import MiniLexer.Token.Kind

/-!
# The scanning automaton

Sixteen states and, for every state and character, one edge. An edge says where to go and
what becomes of the character: it opens a lexeme, extends the open one, is dropped, or shows
that the open lexeme ended before it. A closing edge does not consume its character, so the
character is dispatched again from the initial state. `route` is that loop. It ends because
a closing edge leads to the initial state (`transition_next_of_closes`) and an edge out of
the initial state never closes (`transition_initial_closes`).

The one keyword, `int`, has a state for each of its beginnings, and whether a word is the
keyword is decided only when the word is over.
-/

namespace MiniLexer

/-- What has been read of the open lexeme. -/
inductive ScanState where
  /-- No lexeme is open. -/
  | initial
  | wordI
  | wordIn
  | wordInt
  /-- Any other word. -/
  | word
  | greater
  | greaterEqual
  | assignment
  | plus
  | minus
  | star
  | slash
  | semicolon
  | leftParen
  | rightParen
  /-- A run of digits. -/
  | number
  deriving DecidableEq, Repr

inductive Action where
  /-- It opens a lexeme of this kind. -/
  | start (kind : TokenKind)
  /-- It extends the open lexeme. -/
  | extend
  /-- It extends the open lexeme, which is of this kind from now on. -/
  | extendAs (kind : TokenKind)
  /-- The open lexeme ended before it; it is dispatched again. -/
  | close
  /-- As `close`, and the lexeme turns out to be of this kind. -/
  | closeAs (kind : TokenKind)
  | skip
  deriving DecidableEq, Repr

/-- Whether the action ends the open lexeme and so leaves its character unread. -/
def Action.closes : Action → Bool
  | .close | .closeAs _ => true
  | .start _ | .extend | .extendAs _ | .skip => false

/-- An edge: the state it leads to and what it does. -/
structure Edge where
  next : ScanState
  action : Action
  deriving DecidableEq, Repr

def Edge.close : Edge := ⟨.initial, .close⟩

/-- The characters that open an operator or delimiter, each with the state it leads to and
the kind of its lexeme. -/
def operators : List (Char × ScanState × TokenKind) :=
  [('+', .plus, .plus),
   ('-', .minus, .minus),
   ('*', .star, .star),
   ('/', .slash, .slash),
   (';', .semicolon, .semicolon),
   ('(', .leftParen, .leftParen),
   (')', .rightParen, .rightParen),
   ('=', .assignment, .assignment),
   ('>', .greater, .greater)]

def operator? (c : Char) : Option (ScanState × TokenKind) := operators.lookup c

def openingEdge (c : Char) : Edge :=
  match CharClass.ofChar c with
  | .letter => ⟨if c = 'i' then .wordI else .word, .start .identifier⟩
  | .digit => ⟨.number, .start .intLiteral⟩
  | .blank => ⟨.initial, .skip⟩
  | .other =>
    match operator? c with
    | some (next, kind) => ⟨next, .start kind⟩
    | none => ⟨.initial, .skip⟩

/-- The edges out of a beginning of the keyword that `expected` would lengthen. -/
def keywordEdge (c expected : Char) (next : ScanState) : Edge :=
  if c = expected then ⟨next, .extend⟩
  else if isWordChar c then ⟨.word, .extend⟩
  else .close

def transition (s : ScanState) (c : Char) : Edge :=
  match s with
  | .initial => openingEdge c
  | .wordI => keywordEdge c 'n' .wordIn
  | .wordIn => keywordEdge c 't' .wordInt
  | .wordInt =>
    if isWordChar c then ⟨.word, .extend⟩ else ⟨.initial, .closeAs .keywordInt⟩
  | .word => if isWordChar c then ⟨.word, .extend⟩ else .close
  | .number => if c.isDigit then ⟨.number, .extend⟩ else .close
  | .greater => if c = '=' then ⟨.greaterEqual, .extendAs .greaterEqual⟩ else .close
  | .greaterEqual | .assignment | .plus | .minus | .star | .slash | .semicolon
  | .leftParen | .rightParen => .close

/-- What the end of the input does to the open lexeme. -/
def endOfInput : ScanState → Action
  | .initial => .skip
  | .wordInt => .closeAs .keywordInt
  | _ => .close

/-! ## A closing edge leads to the initial state, which has none of its own -/

theorem openingEdge_closes (c : Char) : (openingEdge c).action.closes = false := by
  unfold openingEdge
  split <;> try rfl
  split <;> rfl

theorem transition_initial_closes (c : Char) :
    (transition .initial c).action.closes = false := openingEdge_closes c

theorem ne_initial_of_closes {s : ScanState} {c : Char}
    (h : (transition s c).action.closes = true) : s ≠ .initial := by
  rintro rfl
  simp [transition_initial_closes] at h

theorem transition_next_of_closes {s : ScanState} {c : Char}
    (h : (transition s c).action.closes = true) : (transition s c).next = .initial := by
  have hs := ne_initial_of_closes h
  revert h
  cases s <;> simp only [transition, keywordEdge] <;> (repeat' split) <;>
    simp_all [Action.closes, Edge.close]

/-! ## The dispatches of one character -/

/-- The edges that a character takes from a state: closing edges, if any, and then the edge
that consumes it. -/
def route (s : ScanState) (c : Char) : List Edge :=
  if (transition s c).action.closes then
    transition s c :: route (transition s c).next c
  else
    [transition s c]
termination_by if s = .initial then 0 else 1
decreasing_by
  rename_i h
  simp [transition_next_of_closes h, ne_initial_of_closes h]

theorem route_of_not_closes {s : ScanState} {c : Char}
    (h : (transition s c).action.closes = false) : route s c = [transition s c] := by
  rw [route, h]
  rfl

/-- A character that ends a lexeme is dispatched once more, from the initial state. -/
theorem route_of_closes {s : ScanState} {c : Char}
    (h : (transition s c).action.closes = true) :
    route s c = [transition s c, transition .initial c] := by
  rw [route, if_pos h, transition_next_of_closes h,
    route_of_not_closes (transition_initial_closes c)]

/-- The edges that a text takes when each character is fed once, closing edges included,
and the state they lead to. -/
def walk (s : ScanState) (cs : List Char) : ScanState × Array Edge :=
  cs.foldl (fun (s, edges) c => ((transition s c).next, edges.push (transition s c))) (s, #[])

end MiniLexer
