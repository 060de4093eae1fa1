import MiniLexer.Error
import MiniLexer.Token.Basic

/-!
# Token streams

A sequence of tokens and a cursor, for a parser that looks ahead and goes back. The tokens
never change; only the cursor moves. It stands before a token or at the end, so it has one
place more than there are tokens, and that last place is reached by reading and never by a
jump.
-/

namespace MiniLexer

/-- Tokens and the place of the next one to read. -/
structure TokenStream where
  tokens : Array Token := #[]
  position : Nat := 0
  deriving DecidableEq, Repr

namespace TokenStream

def ofTokens (tokens : Array Token) : TokenStream := { tokens }

def size (s : TokenStream) : Nat := s.tokens.size

def isEmpty (s : TokenStream) : Bool := s.tokens.isEmpty

def peek (s : TokenStream) : Option Token := s.tokens[s.position]?

def next? (s : TokenStream) : Option (Token × TokenStream) :=
  s.peek.map fun t => (t, { s with position := s.position + 1 })

/-- Reads a token. At the end there is none and the cursor stays. -/
def read (s : TokenStream) : Option Token × TokenStream :=
  match s.next? with
  | some (t, rest) => (some t, rest)
  | none => (none, s)

/-- Steps back by one token, except at the start. -/
def unread (s : TokenStream) : TokenStream := { s with position := s.position - 1 }

/-- Jumps to the given token. A position that is no token's is ignored, the end included. -/
def setPosition (s : TokenStream) (n : Nat) : TokenStream :=
  if n < s.size then { s with position := n } else s

/-- Whether the token at the cursor is of one of the kinds. -/
def peekIsOneOf (s : TokenStream) (kinds : List TokenKind) : Option Bool :=
  s.peek.map (·.isOneOf kinds)

/-- The offset that stands for the end of the stream: where its last token ends. -/
def endOffset (s : TokenStream) : UInt32 :=
  match s.tokens.back? with
  | some t => t.span.stop
  | none => 0

/-- Reads a token of the given kind. If there is none at the cursor, the cursor stays and
the error stands at the token that is there, or at the end. -/
def expect (s : TokenStream) (kind : TokenKind) : Except Error Token × TokenStream :=
  match s.peek with
  | some t =>
    if t.kind = kind then (.ok t, { s with position := s.position + 1 })
    else (.error ⟨.unexpectedToken t.text kind, t.span.start⟩, s)
  | none => (.error ⟨.unexpectedEnd kind, s.endOffset⟩, s)

/-- What an expectation that fails found instead. -/
theorem expect_eq_error_iff {s : TokenStream} {kind : TokenKind} {e : Error} :
    (s.expect kind).1 = .error e ↔
      (∃ t, s.peek = some t ∧ t.kind ≠ kind ∧ e = ⟨.unexpectedToken t.text kind, t.span.start⟩) ∨
        s.peek = none ∧ e = ⟨.unexpectedEnd kind, s.endOffset⟩ := by
  unfold expect
  cases s.peek with
  | none => simp [eq_comm]
  | some t =>
      by_cases hkind : t.kind = kind
      · simp [hkind]
      · simp [hkind, eq_comm (a := e)]

/-! ## Reading many tokens -/

theorem position_lt_of_next? {s rest : TokenStream} {t : Token} (h : s.next? = some (t, rest)) :
    s.position < s.tokens.size := by
  simp only [next?, peek, Option.map_eq_some_iff] at h
  obtain ⟨u, hu, _⟩ := h
  exact (Array.getElem?_eq_some_iff.mp hu).1

/-- Reading moves the cursor by one and changes nothing else. -/
theorem eq_of_next? {s rest : TokenStream} {t : Token} (h : s.next? = some (t, rest)) :
    rest = { s with position := s.position + 1 } := by
  simp only [next?, Option.map_eq_some_iff] at h
  obtain ⟨u, _, hu⟩ := h
  exact (Prod.mk.inj hu).2.symm

/-- The tokens collected so far and up to `n` more. -/
def takeInto (found : Array Token) (s : TokenStream) : Nat → Array Token × TokenStream
  | 0 => (found, s)
  | n + 1 =>
    match s.next? with
    | some (t, rest) => rest.takeInto (found.push t) n
    | none => (found, s)

/-- Reads the next `n` tokens, or as many as there are. -/
def take (s : TokenStream) (n : Nat) : Array Token × TokenStream := s.takeInto #[] n

/-- The tokens collected so far and all that remain. -/
def restInto (found : Array Token) (s : TokenStream) : Array Token × TokenStream :=
  match _h : s.next? with
  | some (t, rest) => rest.restInto (found.push t)
  | none => (found, s)
termination_by s.tokens.size - s.position
decreasing_by
  have hlt := position_lt_of_next? _h
  have heq := eq_of_next? _h
  subst heq
  simp only
  omega

def rest (s : TokenStream) : Array Token × TokenStream := s.restInto #[]

/-! ## No operation changes the tokens -/

theorem tokens_of_next? {s rest : TokenStream} {t : Token} (h : s.next? = some (t, rest)) :
    rest.tokens = s.tokens := by rw [eq_of_next? h]

@[simp] theorem tokens_read (s : TokenStream) : s.read.2.tokens = s.tokens := by
  unfold read
  split
  · rename_i h
    exact tokens_of_next? h
  · rfl

@[simp] theorem tokens_setPosition (s : TokenStream) (n : Nat) :
    (s.setPosition n).tokens = s.tokens := by
  unfold setPosition
  split <;> rfl

@[simp] theorem tokens_expect (s : TokenStream) (kind : TokenKind) :
    (s.expect kind).2.tokens = s.tokens := by
  unfold expect
  split
  · split <;> rfl
  · rfl

theorem tokens_takeInto (found : Array Token) (s : TokenStream) (n : Nat) :
    (s.takeInto found n).2.tokens = s.tokens := by
  induction n generalizing found s with
  | zero => rfl
  | succ n ih =>
      rw [takeInto]
      split
      · rename_i h
        rw [ih, tokens_of_next? h]
      · rfl

theorem tokens_restInto (found : Array Token) (s : TokenStream) :
    (s.restInto found).2.tokens = s.tokens := by
  fun_induction restInto found s with
  | case1 found s t rest h ih => rw [ih, tokens_of_next? h]
  | case2 found s h => rfl

@[simp] theorem tokens_take (s : TokenStream) (n : Nat) : (s.take n).2.tokens = s.tokens :=
  tokens_takeInto #[] s n

@[simp] theorem tokens_rest (s : TokenStream) : s.rest.2.tokens = s.tokens :=
  tokens_restInto #[] s

end TokenStream

end MiniLexer
