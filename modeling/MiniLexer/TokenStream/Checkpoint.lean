import MiniLexer.TokenStream.Op

/-!
# Going back

A parser that may have to give up an alternative can go back in two ways. It asks for the
position and jumps to it later, or it keeps a whole stream to return to. The tokens are the same
by then, so only the cursor can be in the wrong place.

A jump leads to any token, whatever has happened since (`setPosition_eq_iff`). It does not lead
to the end, where the cursor has one place more than there are tokens. A stream that was saved
can be returned to from anywhere, the end included (`Checkpoints.restore?_save`).
-/

namespace MiniLexer.TokenStream

section
variable {s t : TokenStream}

/-! ## Saved positions -/

theorem setPosition_of_lt {n : Nat} (h : n < s.size) : s.setPosition n = { s with position := n } :=
  if_pos h

/-- A jump to no token is ignored. -/
theorem setPosition_of_le {n : Nat} (h : s.size ≤ n) : s.setPosition n = s :=
  if_neg (Nat.not_lt.mpr h)

theorem eq_of_tokens_of_position (htokens : s.tokens = t.tokens) (hpos : s.position = t.position) :
    s = t := by
  obtain ⟨ts, n⟩ := s
  obtain rfl : ts = t.tokens := htokens
  obtain rfl : n = t.position := hpos
  rfl

/-- Streams that answer alike are equal: it is enough to ask for the tokens and the position. -/
theorem eq_of_answers (h : ∀ ops, (s.run ops).1 = (t.run ops).1) : s = t := by
  have hasked := h [.tokens, .position]
  simp only [run, answer, List.cons.injEq, Prod.mk.injEq, Answer.tokens.injEq] at hasked
  obtain ⟨⟨htokens, hpos⟩, -⟩ := hasked
  exact eq_of_tokens_of_position (Array.toList_inj.mp htokens) hpos

/-- **A jump to a position of the same tokens succeeds unless it leads to the end from
elsewhere.** -/
theorem setPosition_eq_iff (htokens : t.tokens = s.tokens) :
    t.setPosition s.position = s ↔ s.position < s.size ∨ t.position = s.position := by
  have hsize : t.size = s.size := congrArg Array.size htokens
  by_cases hlt : s.position < s.size
  · rw [setPosition_of_lt (hsize ▸ hlt)]
    exact iff_of_true (eq_of_tokens_of_position htokens rfl) (Or.inl hlt)
  · -- the jump changes nothing, so the cursor has to be there already
    rw [setPosition_of_le (hsize ▸ Nat.not_lt.mp hlt)]
    constructor
    · intro heq
      exact Or.inr (congrArg position heq)
    · intro hpos
      exact eq_of_tokens_of_position htokens (hpos.resolve_left hlt)

end

/-! ## Saved streams -/

/-- A stream and the streams saved from it, the latest first. -/
structure Checkpoints where
  current : TokenStream
  saved : List TokenStream := []
  deriving DecidableEq, Repr

namespace Checkpoints

/-- Saves the current stream. -/
def save (c : Checkpoints) : Checkpoints := { c with saved := c.current :: c.saved }

/-- Returns to the stream saved last, if there is one, and forgets it. -/
def restore? (c : Checkpoints) : Option Checkpoints :=
  match c.saved with
  | s :: rest => some ⟨s, rest⟩
  | [] => none

/-- Whatever is done to the current stream in between, restoring brings back the saved one. -/
theorem restore?_save (c : Checkpoints) (s : TokenStream) :
    restore? { c.save with current := s } = some c := rfl

end Checkpoints

end MiniLexer.TokenStream
