import MiniLexer.Proofs.ZipperView
import MiniLexer.TokenStream.Checkpoint

/-!
# Going back to a saved position

A parser asks for the position, goes on, and jumps back to it. By then the stream may have been
used in any way. A jump to a token finds it again; a jump to the end, where a position can be
asked for as well, is ignored, and the stream stays where it is.

The jump is answered alike in both cases. That it was ignored shows in what is answered next: a
stream is known by its answers (`eq_of_answers`), so one that the jump did not restore goes on
differently in some conversation, and `ReturnLaws` says when that is.
-/

namespace MiniLexer.TokenStream

/-- What comes of a jump to the position of `s` in a stream `t` that was `s` and has been used
since. -/
structure ReturnLaws (s t : TokenStream) : Prop where
  /-- The position is that of a token or of the end. -/
  saved : s.position ≤ s.size
  /-- The jump leads back to a token, and to the end if the cursor is there already. -/
  restored_iff : t.setPosition s.position = s ↔ s.position < s.size ∨ t.position = s.position
  /-- The stream then goes on as it would have gone on before. -/
  run_eq_iff : (∀ ops, (t.setPosition s.position).run ops = s.run ops) ↔
    s.position < s.size ∨ t.position = s.position
  /-- Otherwise the answers to some conversation tell that it does not. -/
  answers_eq_iff : (∀ ops, ((t.setPosition s.position).run ops).1 = (s.run ops).1) ↔
    s.position < s.size ∨ t.position = s.position
  /-- A stream is lost exactly if it was saved at the end and the cursor has been moved off it. -/
  lost_iff : t.setPosition s.position ≠ s ↔ s.position = s.size ∧ t.position < t.size
  /-- Nothing is said about the loss, and nothing is done. -/
  ignored : t.setPosition s.position ≠ s → t.answer (.setPosition s.position) = (.nothing, t)

theorem ReturnLaws.of_tokens {s t : TokenStream} (htokens : t.tokens = s.tokens)
    (hs : s.position ≤ s.size) (ht : t.position ≤ t.size) : ReturnLaws s t where
  saved := hs
  restored_iff := setPosition_eq_iff htokens
  run_eq_iff := by
    rw [← setPosition_eq_iff htokens]
    constructor
    · intro hrun
      exact eq_of_answers fun ops => congrArg Prod.fst (hrun ops)
    · intro heq ops
      rw [heq]
  answers_eq_iff := by
    rw [← setPosition_eq_iff htokens]
    constructor
    · exact eq_of_answers
    · intro heq ops
      rw [heq]
  lost_iff := by
    have hsize : t.size = s.size := congrArg Array.size htokens
    rw [Ne, setPosition_eq_iff htokens]
    omega
  ignored := by
    intro hlost
    have hsize : t.size = s.size := congrArg Array.size htokens
    rw [Ne, setPosition_eq_iff htokens, not_or] at hlost
    rw [answer, setPosition_of_le (hsize ▸ Nat.not_lt.mp hlost.1)]

/-! ## At the top -/

/--
**A position saved before the end is returned to from anywhere. One saved at the end is returned
to from the end alone, and the jump does not say so.**

The stream may have been used in any way before the position was saved and in any way since.
-/
theorem returnLaws_run (ts : Array Token) (ops later : List Op) :
    ReturnLaws ((ofTokens ts).run ops).2 (((ofTokens ts).run ops).2.run later).2 := by
  obtain ⟨-, hsaved⟩ := (mirrors_ofTokens ts).run ops
  obtain ⟨-, hused⟩ := hsaved.run later
  exact .of_tokens (tokens_run _ _) hsaved.inBounds hused.inBounds

/-- Reading the only token, saving, stepping back: the jump is ignored, and the token is read
again. -/
example (t : Token) :
    (((ofTokens #[t]).run [.read, .position, .unread, .setPosition 1, .read]).1.map Prod.fst) =
      [.token (some t), .number 1, .nothing, .nothing, .token (some t)] := rfl

end MiniLexer.TokenStream
