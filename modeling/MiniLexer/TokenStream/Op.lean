import MiniLexer.TokenStream.Basic

/-!
# Stream operations as data

What a parser can ask of a stream, and what it is answered. Having both as values makes a
whole conversation with a stream a list, which can be run, compared with another run and
reasoned about.
-/

namespace MiniLexer.TokenStream

/-- A question to a stream. -/
inductive Op where
  | read
  | next
  | peek
  | unread
  | position
  | size
  | isEmpty
  | tokens
  | setPosition (n : Nat)
  | take (n : Nat)
  | rest
  | peekIsOneOf (kinds : List TokenKind)
  | expect (kind : TokenKind)
  deriving DecidableEq, Repr

/-- The answer to a question. -/
inductive Answer where
  | nothing
  | token (t : Option Token)
  | tokens (ts : List Token)
  | number (n : Nat)
  | flag (b : Option Bool)
  /-- The token that was asked for is not there. -/
  | refused (e : Error)
  deriving DecidableEq, Repr

/-- The answer that an expected token, or its absence, makes. -/
def Answer.ofExcept : Except Error Token → Answer
  | .ok t => token (some t)
  | .error e => refused e

/-- Answers a question; what is left is the stream for the next one. -/
def answer (s : TokenStream) : Op → Answer × TokenStream
  | .read => (.token s.read.1, s.read.2)
  | .next =>
    match s.next? with
    | some (t, rest) => (.token (some t), rest)
    | none => (.token none, s)
  | .peek => (.token s.peek, s)
  | .unread => (.nothing, s.unread)
  | .position => (.number s.position, s)
  | .size => (.number s.size, s)
  | .isEmpty => (.flag (some s.isEmpty), s)
  | .tokens => (.tokens s.tokens.toList, s)
  | .setPosition n => (.nothing, s.setPosition n)
  | .take n => (.tokens (s.take n).1.toList, (s.take n).2)
  | .rest => (.tokens s.rest.1.toList, s.rest.2)
  | .peekIsOneOf kinds => (.flag (s.peekIsOneOf kinds), s)
  | .expect kind => (.ofExcept (s.expect kind).1, (s.expect kind).2)

/-- Asks one question after another. Beside each answer stands the position after it. -/
def run (s : TokenStream) : List Op → List (Answer × Nat) × TokenStream
  | [] => ([], s)
  | op :: ops =>
    let (a, rest) := s.answer op
    let (as, last) := rest.run ops
    ((a, rest.position) :: as, last)

/-- To ask for the next token is to read it. -/
theorem answer_next (s : TokenStream) : s.answer .next = s.answer .read := by
  simp only [answer, read]
  cases s.next? with
  | none => rfl
  | some found => rfl

theorem tokens_answer (s : TokenStream) (op : Op) : (s.answer op).2.tokens = s.tokens := by
  cases op with
  | next =>
      simp only [answer]
      split
      · rename_i h
        exact tokens_of_next? h
      · rfl
  | _ => simp [answer, unread]

/-- However a stream is used, it is a stream of the same tokens. -/
theorem tokens_run (s : TokenStream) (ops : List Op) : (s.run ops).2.tokens = s.tokens := by
  induction ops generalizing s with
  | nil => rfl
  | cons op ops ih => exact (ih _).trans (s.tokens_answer op)

end MiniLexer.TokenStream
