import MiniLexer.Proofs.Layout

/-!
# One blank between two tokens

The texts of a source's tokens, written with one blank between two, are a source again
(`respaced`). It has the tokens of the first one but for their places, so it stands for all
sources that have them: writing it out once more changes nothing, and two sources are written
alike exactly if their tokens agree in kind and text.

The first scan may have met lexemes that touch, junk between them and characters of any size;
the second meets a blank after every lexeme. What the two have in common are the lexemes. They
are laid out anew (`Layout.spaced`), a gap that is not empty keeps any two of them apart, and
what a token is but for its place hangs on its lexeme alone.
-/

namespace MiniLexer

/-- A token without its place. -/
def Token.reading (t : Token) : TokenKind × String := (t.kind, t.text)

/-- The kinds and texts that are found in a source. -/
def readings (source : String) : List (TokenKind × String) :=
  (tokenize source).tokens.toList.map Token.reading

/-- The texts that are found in a source, with one blank between two. -/
def respaced (source : String) : String :=
  " ".intercalate ((tokenize source).tokens.toList.map Token.text)

def Lexeme.reading (w : Lexeme) : TokenKind × String := (w.kind, String.ofList w.chars)

def Gap.empty : Gap where
  chars := []
  idle := by simp

def Gap.blank : Gap := .single ' ' rfl

/-- Lexemes with one blank between two. -/
def Layout.spaced : List Lexeme → Layout
  | [] => ⟨[], .empty⟩
  | w :: ws => ⟨⟨.empty, w⟩ :: ws.map (Piece.mk .blank), .empty⟩

/-! ## The lexemes laid out anew -/

theorem Pieces.map_reading_tokens (k : Nat) (ps : List Piece) :
    (tokens k ps).map Token.reading = ps.map fun p => p.lexeme.reading := by
  induction ps generalizing k with
  | nil => rfl
  | cons p ps ih =>
      rw [tokens_cons, List.map_cons, List.map_cons, ih]
      rfl

/-- Lexemes need no care where the gaps between them are not empty. -/
theorem Pieces.isChain_of_gaps {ps : List Piece} (h : ∀ p ∈ ps.tail, p.gap.chars ≠ []) :
    ps.IsChain Piece.Apart := by
  induction ps with
  | nil => exact List.isChain_nil
  | cons p ps ih =>
      refine List.isChain_cons.mpr ⟨?_, ih fun q hq => h q (List.mem_of_mem_tail hq)⟩
      intro q hq hgap
      exact absurd hgap (h q (List.mem_of_mem_head? hq))

namespace Layout

theorem separated_spaced (ws : List Lexeme) : (spaced ws).Separated := by
  refine Pieces.isChain_of_gaps ?_
  intro p hp
  cases ws with
  | nil => simp [spaced] at hp
  | cons w ws =>
      obtain ⟨v, -, rfl⟩ := List.mem_map.mp hp
      exact List.cons_ne_nil _ _

theorem map_reading_spaced (ws : List Lexeme) :
    ((spaced ws).pieces.map fun p => p.lexeme.reading) = ws.map Lexeme.reading := by
  cases ws with
  | nil => rfl
  | cons w ws => simp [spaced]

theorem chars_spaced (ws : List Lexeme) :
    (spaced ws).chars = [' '].intercalate (ws.map Lexeme.chars) := by
  cases ws with
  | nil => rfl
  | cons w ws =>
      induction ws generalizing w with
      | nil => simp [spaced, chars, Gap.empty]
      | cons v ws ih =>
          have hv := ih v
          simp only [spaced, chars, Pieces.chars_cons, List.map_cons, Gap.empty, List.nil_append,
            List.append_nil] at hv ⊢
          rw [List.intercalate_cons_cons, ← hv]
          simp [Gap.blank, Gap.single]

end Layout

/-! ## The tokens found again -/

theorem exists_lexemes (source : String) : ∃ ws : List Lexeme,
    readings source = ws.map Lexeme.reading ∧
      respaced source = String.ofList (Layout.spaced ws).chars := by
  obtain ⟨l, -, -, htokens⟩ := Layout.exists_of_source source
  refine ⟨l.pieces.map Piece.lexeme, ?_, ?_⟩
  · rw [readings, htokens, Pieces.map_reading_tokens, List.map_map]
    rfl
  · rw [respaced, htokens, Pieces.map_text_tokens, ← String.toList_inj,
      String.toList_intercalate, String.toList_ofList, Layout.chars_spaced]
    simp [Function.comp_def]

theorem readings_respaced (source : String) : readings (respaced source) = readings source := by
  obtain ⟨ws, hreadings, hrespaced⟩ := exists_lexemes source
  rw [hrespaced, hreadings, readings, Layout.tokens_tokenize _ (Layout.separated_spaced ws),
    Layout.tokens, Pieces.map_reading_tokens, Layout.map_reading_spaced]

/-- How a source is written out hangs on what is found in it alone. -/
theorem respaced_eq (source : String) :
    respaced source = " ".intercalate ((readings source).map Prod.snd) := by
  rw [respaced, readings, List.map_map]
  rfl

/--
**One blank between two tokens is a canonical form.**

It has the kinds and texts of the source, it is its own canonical form, and it is the same for
two sources exactly if they have the same kinds and texts.
-/
theorem respaced_eq_respaced_iff (s₁ s₂ : String) :
    readings (respaced s₁) = readings s₁ ∧ respaced (respaced s₁) = respaced s₁ ∧
      (respaced s₁ = respaced s₂ ↔ readings s₁ = readings s₂) := by
  refine ⟨readings_respaced s₁, ?_, ?_, ?_⟩
  · rw [respaced_eq (respaced s₁), readings_respaced, ← respaced_eq]
  · intro h
    rw [← readings_respaced s₁, h, readings_respaced]
  · intro h
    rw [respaced_eq s₁, h, ← respaced_eq]

example : respaced "in\tint9(45abc" = "in int9 ( 45 abc" := by decide +kernel

end MiniLexer
