import MiniLexer.Proofs.Layout

/-!
# Cutting a source in two

The tokens of `a ++ b` are those of `a`, and then those of `b` moved up by the bytes of `a`,
unless the cut goes through a token: the last token of `a` is its last text, and the first
character of `b` continues it (`Joins`). So a lexeme that the end of the input closes is the
one that a character which does not continue it would have closed.

The separated layouts of the two sources, one after another, are a layout of both. It promises
the tokens wanted, and it is separated exactly when the seam is, which is the condition.
-/

namespace MiniLexer

open Lexeme (Stops)

/-- The token of the same text that lies `n` bytes further on. -/
def Token.shift (n : Nat) (t : Token) : Token :=
  { t with span := ⟨t.span.start + n.toUInt32, t.span.stop + n.toUInt32⟩ }

/-- The token is cut from the last bytes of the source. -/
def Token.EndsAt (t : Token) (source : String) : Prop :=
  ∃ before : String, source = before ++ t.text ∧
    t.span = .ofText t.text before.utf8ByteSize

/-- The last token of the first source goes on in the second. -/
def Joins (a b : String) : Prop :=
  ∃ t ∈ (tokenize a).tokens.toList.getLast?, t.EndsAt a ∧
    ∃ c ∈ b.toList.head?, t.kind.continuedBy c

/-! ## Tokens further on -/

theorem Token.shift_ofText (kind : TokenKind) (text : String) (k n : Nat) :
    (Token.ofText kind text k).shift n = .ofText kind text (k + n) := by
  simp [shift, ofText, Span.ofText, Nat.add_right_comm k n]

theorem Pieces.tokens_shift (ps : List Piece) (k n : Nat) :
    tokens (k + n) ps = (tokens k ps).map (Token.shift n) := by
  induction ps generalizing k with
  | nil => rfl
  | cons p ps ih =>
      have hhead : p.token (k + n) = (p.token k).shift n := by
        rw [Piece.token, Piece.token, Token.shift_ofText, Nat.add_right_comm]
      rw [tokens_cons, tokens_cons, List.map_cons, hhead, Nat.add_right_comm, ih]

/-! ## The last token of a layout -/

theorem Pieces.getLast?_tokens (k : Nat) (ps : List Piece) :
    (tokens k ps).getLast? =
      ps.getLast?.map fun p => p.token (k + String.utf8Len (chars ps.dropLast)) := by
  rcases List.eq_nil_or_concat' ps with hnil | ⟨qs, p, hqs⟩
  · subst hnil
    rfl
  · subst hqs
    simp [tokens_append]

/-- It ends where the source ends if no gap follows. -/
theorem Layout.endsAt_iff {l : Layout} {qs : List Piece} {p : Piece} (h : l.pieces = qs ++ [p]) :
    (p.token (String.utf8Len (Pieces.chars qs))).EndsAt (String.ofList l.chars) ↔
      l.last.chars = [] := by
  have htext : l.chars = Pieces.chars qs ++ p.gap.chars ++ p.lexeme.chars ++ l.last.chars := by
    rw [chars, h]
    simp
  constructor
  · intro h
    obtain ⟨before, heq, -⟩ := h
    -- the last character would be one of a lexeme and one of a gap
    by_contra hlast
    obtain ⟨gs, g, hg⟩ := List.eq_nil_or_concat' l.last.chars |>.resolve_left hlast
    obtain ⟨ws, w, hw⟩ :=
      List.eq_nil_or_concat' p.lexeme.chars |>.resolve_left p.lexeme.spells.ne_nil
    have hends : l.chars = before.toList ++ p.lexeme.chars := by
      have := congrArg String.toList heq
      rwa [String.toList_ofList, String.toList_append, Piece.toList_text_token] at this
    have hlastg : l.chars.getLast? = some g := by
      rw [htext, hg, ← List.append_assoc]
      exact List.getLast?_concat
    have hlastw : l.chars.getLast? = some w := by
      rw [hends, hw, ← List.append_assoc]
      exact List.getLast?_concat
    have hgw : g = w := Option.some.inj (hlastg.symm.trans hlastw)
    have hgap := l.last.idle g (by simp [hg])
    have hlex := p.lexeme.spells.isTokenChar w (by simp [hw])
    rw [← hgw, hgap] at hlex
    simp at hlex
  · intro hlast
    refine ⟨String.ofList (Pieces.chars qs ++ p.gap.chars), ?_, ?_⟩
    · rw [htext, hlast, List.append_nil, String.ofList_append]
      rfl
    · rw [String.utf8ByteSize_ofList, String.utf8Len_append]
      rfl

/-! ## The seam -/

/-- Two layouts are apart at the seam if no gap is needed there. -/
theorem Layout.apart_seam_iff (a b : Layout) :
    (∀ p ∈ a.pieces.getLast?, ∀ q ∈ (b.after a.last).pieces.head?, p.Apart q) ↔
      ∀ p ∈ a.pieces.getLast?, a.last.chars = [] → Stops p.lexeme.chars b.chars := by
  refine forall₂_congr fun p _ => ?_
  rw [← stops_gap, ← chars_after]
  exact (stops_iff p.lexeme (b.after a.last).pieces (b.after a.last).last).symm

/-- The condition on the layouts is the one on the tokens. -/
theorem Layout.not_joins_iff (a b : Layout) (ha : a.Separated) :
    ¬ Joins (String.ofList a.chars) (String.ofList b.chars) ↔
      ∀ p ∈ a.pieces.getLast?, a.last.chars = [] → Stops p.lexeme.chars b.chars := by
  unfold Joins
  rw [a.tokens_tokenize ha, tokens, Pieces.getLast?_tokens, String.toList_ofList]
  rcases List.eq_nil_or_concat' a.pieces with hnil | ⟨qs, p, hqs⟩
  · simp [hnil]
  · have hends := endsAt_iff hqs
    have hcont := p.lexeme.spells.continues_eq
    rw [hqs]
    simp [hends, Stops, hcont]

/-! ## At the top -/

/--
**Tokenizing a source in two parts is tokenizing each, unless the cut goes through a token.**

In particular a gap at the end of a source changes no token: the end of the input and a
character that ends a lexeme close it alike.
-/
theorem tokenize_append_iff (a b : String) :
    ((tokenize (a ++ b)).tokens.toList =
        (tokenize a).tokens.toList ++ (tokenize b).tokens.toList.map (Token.shift a.utf8ByteSize) ↔
      ¬ Joins a b) ∧
      ∀ g : Gap, (tokenize (a ++ String.ofList g.chars)).tokens = (tokenize a).tokens := by
  obtain ⟨la, hla, ha⟩ := Layout.exists_separated a.toList
  obtain ⟨lb, hlb, hb⟩ := Layout.exists_separated b.toList
  obtain rfl : a = String.ofList la.chars := by rw [ha, String.ofList_toList]
  obtain rfl : b = String.ofList lb.chars := by rw [hb, String.ofList_toList]
  have happend : ∀ l : Layout, String.ofList la.chars ++ String.ofList l.chars =
      String.ofList (la.append l).chars := by
    intro l
    rw [Layout.chars_append, String.ofList_append]
  constructor
  · -- both sides are what one layout of the whole promises
    have hpromise : la.tokens 0 ++ (lb.tokens 0).map (Token.shift (String.utf8Len la.chars)) =
        (la.append lb).tokens 0 := by
      rw [Layout.tokens_append]
      exact congrArg _ (Pieces.tokens_shift lb.pieces 0 _).symm
    rw [happend, tokens_tokenize_ofList, la.tokens_tokenize hla, lb.tokens_tokenize hlb,
      String.utf8ByteSize_ofList, hpromise, Layout.lexemes_chars_iff, Layout.separated_append,
      Layout.apart_seam_iff, la.not_joins_iff lb hla]
    exact ⟨fun h => h.2.2, fun h => ⟨hla, hlb, h⟩⟩
  · -- a gap is a layout without pieces, so there is no seam
    intro g
    have hgap : (la.append ⟨[], g⟩).Separated :=
      (la.separated_append ⟨[], g⟩).mpr ⟨hla, List.isChain_nil, by simp [Layout.after]⟩
    have hchars : g.chars = (Layout.mk [] g).chars := rfl
    rw [← Array.toList_inj, hchars, happend, Layout.tokens_tokenize _ hgap,
      la.tokens_tokenize hla, Layout.tokens_append]
    exact List.append_nil _

end MiniLexer
