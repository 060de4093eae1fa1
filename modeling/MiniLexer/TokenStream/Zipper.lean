import MiniLexer.TokenStream.Op

/-!
# Streams as zippers

A second picture of a token stream, without indices: the tokens already read, the last one
first, and the tokens still ahead. Reading moves one token over, stepping back moves one
back, and a jump cuts the whole sequence anew. A stream is seen as a zipper by cutting its
tokens at the cursor (`toZipper`).
-/

namespace MiniLexer

/-- A sequence of tokens, cut in two. -/
structure Zipper where
  /-- The tokens already read, the last one first. -/
  behind : List Token
  /-- The tokens still to be read. -/
  ahead : List Token
  deriving DecidableEq, Repr

namespace Zipper

def tokens (z : Zipper) : List Token := z.behind.reverse ++ z.ahead

/-- The sequence with its first `n` tokens read. -/
def cut (ts : List Token) (n : Nat) : Zipper := ⟨(ts.take n).reverse, ts.drop n⟩

def position (z : Zipper) : Nat := z.behind.length

def forward (z : Zipper) : Zipper :=
  match z.ahead with
  | t :: ts => ⟨t :: z.behind, ts⟩
  | [] => z

def back (z : Zipper) : Zipper :=
  match z.behind with
  | t :: ts => ⟨ts, t :: z.ahead⟩
  | [] => z

/-- Moves up to `n` tokens from ahead to behind. -/
def advance (z : Zipper) (n : Nat) : Zipper :=
  ⟨(z.ahead.take n).reverse ++ z.behind, z.ahead.drop n⟩

/-- Cuts the sequence before its token number `n`, if it has one. -/
def jump (z : Zipper) (n : Nat) : Zipper :=
  if n < z.tokens.length then cut z.tokens n else z

def endOffset (z : Zipper) : UInt32 := (z.tokens.getLast?.map (·.span.stop)).getD 0

def expect (z : Zipper) (kind : TokenKind) : Except Error Token × Zipper :=
  match z.ahead with
  | t :: _ =>
    if t.kind = kind then (.ok t, z.forward)
    else (.error ⟨.unexpectedToken t.text kind, t.span.start⟩, z)
  | [] => (.error ⟨.unexpectedEnd kind, z.endOffset⟩, z)

/-- Answers a question to the stream from its two halves. -/
def answer (z : Zipper) : TokenStream.Op → TokenStream.Answer × Zipper
  | .read => (.token z.ahead.head?, z.forward)
  | .next => (.token z.ahead.head?, z.forward)
  | .peek => (.token z.ahead.head?, z)
  | .unread => (.nothing, z.back)
  | .position => (.number z.position, z)
  | .size => (.number z.tokens.length, z)
  | .isEmpty => (.flag (some z.tokens.isEmpty), z)
  | .tokens => (.tokens z.tokens, z)
  | .setPosition n => (.nothing, z.jump n)
  | .take n => (.tokens (z.ahead.take n), z.advance n)
  | .rest => (.tokens z.ahead, z.advance z.ahead.length)
  | .peekIsOneOf kinds => (.flag (z.ahead.head?.map (·.isOneOf kinds)), z)
  | .expect kind => (.ofExcept (z.expect kind).1, (z.expect kind).2)

/-- Asks one question after another. Beside each answer stands the position after it. -/
def run (z : Zipper) : List TokenStream.Op → List (TokenStream.Answer × Nat) × Zipper
  | [] => ([], z)
  | op :: ops =>
    let (a, rest) := z.answer op
    let (as, last) := rest.run ops
    ((a, rest.position) :: as, last)

/-! ## To move is to cut elsewhere -/

@[simp] theorem tokens_cut (ts : List Token) (n : Nat) : (cut ts n).tokens = ts := by
  simp [cut, tokens]

theorem position_cut {ts : List Token} {n : Nat} (h : n ≤ ts.length) :
    (cut ts n).position = n := by
  simp [cut, position, h]

theorem forward_of_nil {z : Zipper} (h : z.ahead = []) : z.forward = z := by
  rw [forward, h]

theorem advance_of_nil {z : Zipper} (h : z.ahead = []) (n : Nat) : z.advance n = z := by
  obtain ⟨behind, ahead⟩ := z
  obtain rfl : ahead = [] := h
  simp [advance]

theorem advance_succ (z : Zipper) (n : Nat) : z.advance (n + 1) = z.forward.advance n := by
  obtain ⟨behind, ahead⟩ := z
  cases ahead with
  | nil => simp [advance, forward]
  | cons t ts => simp [advance, forward]

theorem advance_cut (ts : List Token) (n m : Nat) : (cut ts n).advance m = cut ts (n + m) := by
  simp [cut, advance, List.take_add]

/-- At the end there is nothing to move, and nothing more to cut off. -/
theorem forward_cut (ts : List Token) (n : Nat) : (cut ts n).forward = cut ts (n + 1) :=
  (advance_succ (cut ts n) 0).symm.trans (advance_cut ts n 1)

theorem back_forward {z : Zipper} (h : z.ahead ≠ []) : z.forward.back = z := by
  obtain ⟨behind, ahead⟩ := z
  cases ahead with
  | nil => exact absurd rfl h
  | cons t ts => rfl

/-- Before the first token there is nothing to move back. -/
theorem back_cut {ts : List Token} {n : Nat} (h : n ≤ ts.length) :
    (cut ts n).back = cut ts (n - 1) := by
  cases n with
  | zero => rfl
  | succ n =>
      have hahead : (cut ts n).ahead ≠ [] := by
        have hlen : 0 < (ts.drop n).length := by
          rw [List.length_drop]
          omega
        exact List.ne_nil_of_length_pos hlen
      rw [← forward_cut, back_forward hahead, Nat.add_sub_cancel]

theorem jump_cut (ts : List Token) (n m : Nat) :
    (cut ts n).jump m = if m < ts.length then cut ts m else cut ts n := by
  rw [jump, tokens_cut]

end Zipper

/-- A stream as the tokens behind and ahead of its cursor. -/
def TokenStream.toZipper (s : TokenStream) : Zipper := .cut s.tokens.toList s.position

end MiniLexer
