import MiniLexer.Proofs.OpenLexeme
import Mathlib.Data.List.Chain

/-!
# Texts as gaps and lexemes

A layout is a text taken apart: a gap, a lexeme, a gap, a lexeme, and so on, and a last gap.
Its parts are what their types say, so any list of lexemes with any gaps between them is one.
`Layout.tokens` are the tokens that a layout promises, each at its true offset.

Not every layout keeps its promise, for two lexemes without a gap may read as one. It does
exactly when it is **separated**: no lexeme, with nothing behind it, swallows the head of the
next (`lexemes_chars_iff`). And every text has a separated layout (`exists_separated`). So what
holds of the tokens of separated layouts holds of the tokens of every text, and the proofs
about whole sources go by induction over pieces and never over characters.
-/

namespace MiniLexer

open Lexeme (Spells Stops continues swallows isTokenChar lexemes isAlpha_of_isDigit
  isAlphanum_of_isDigit isAlphanum_of_ofOperator?)

/-- Characters that belong to no lexeme. -/
structure Gap where
  chars : List Char
  idle : ∀ c ∈ chars, isTokenChar c = false

/-- A text that is a lexeme, and of which kind. -/
structure Lexeme where
  kind : TokenKind
  chars : List Char
  spells : Spells kind chars

/-- A lexeme and the gap before it. -/
structure Piece where
  gap : Gap
  lexeme : Lexeme

/-- Lexemes with gaps before, between and after them. -/
structure Layout where
  pieces : List Piece
  last : Gap

/-- Two lexemes that read as one if nothing stands between them: a word takes what begins with a
letter or a digit, a number takes a number, and `>` takes what begins with `=`. -/
def Lexeme.Merge (v w : Lexeme) : Prop :=
  (∃ c ∈ v.chars.head?, c.isAlpha) ∧ (∃ d ∈ w.chars.head?, d.isAlphanum) ∨
    (∀ c ∈ v.chars, c.isDigit) ∧ (∀ d ∈ w.chars, d.isDigit) ∨
    v.chars = ['>'] ∧ w.chars.head? = some '='

namespace Piece

def chars (p : Piece) : List Char := p.gap.chars ++ p.lexeme.chars

/-- The token of a piece that begins at the given offset. -/
def token (p : Piece) (k : Nat) : Token :=
  .ofText p.lexeme.kind (String.ofList p.lexeme.chars) (k + String.utf8Len p.gap.chars)

/-- The lexeme of the second piece cannot be read as part of the first. -/
def Apart (p q : Piece) : Prop := q.gap.chars = [] → ¬ p.lexeme.Merge q.lexeme

end Piece

def Pieces.chars (ps : List Piece) : List Char := ps.flatMap Piece.chars

/-- The tokens of pieces of which the first begins at the given offset. -/
def Pieces.tokens (k : Nat) : List Piece → List Token
  | [] => []
  | p :: ps => p.token k :: Pieces.tokens (k + String.utf8Len p.chars) ps

namespace Layout

def chars (l : Layout) : List Char := Pieces.chars l.pieces ++ l.last.chars

/-- The tokens that a layout promises when it begins at the given offset. -/
def tokens (l : Layout) (k : Nat) : List Token := Pieces.tokens k l.pieces

def Separated (l : Layout) : Prop := l.pieces.IsChain Piece.Apart

end Layout

/-! ## Small lemmas -/

namespace Piece

@[simp] theorem kind_token (p : Piece) (k : Nat) : (p.token k).kind = p.lexeme.kind := rfl

@[simp] theorem toList_text_token (p : Piece) (k : Nat) :
    (p.token k).text.toList = p.lexeme.chars := String.toList_ofList

theorem utf8Len_chars (p : Piece) : String.utf8Len p.chars =
    String.utf8Len p.gap.chars + String.utf8Len p.lexeme.chars := String.utf8Len_append _ _

theorem utf8Len_lexeme_pos (p : Piece) : 0 < String.utf8Len p.lexeme.chars :=
  Text.utf8Len_pos p.lexeme.spells.ne_nil

end Piece

namespace Pieces

@[simp] theorem chars_nil : chars [] = [] := rfl

@[simp] theorem chars_cons (p : Piece) (ps : List Piece) :
    chars (p :: ps) = p.gap.chars ++ p.lexeme.chars ++ chars ps := rfl

@[simp] theorem chars_append (ps qs : List Piece) : chars (ps ++ qs) = chars ps ++ chars qs :=
  List.flatMap_append

@[simp] theorem tokens_nil (k : Nat) : tokens k [] = [] := rfl

@[simp] theorem tokens_cons (k : Nat) (p : Piece) (ps : List Piece) :
    tokens k (p :: ps) = p.token k :: tokens (k + String.utf8Len p.chars) ps := rfl

theorem tokens_append (k : Nat) (ps qs : List Piece) :
    tokens k (ps ++ qs) = tokens k ps ++ tokens (k + String.utf8Len (chars ps)) qs := by
  induction ps generalizing k with
  | nil => simp
  | cons p ps ih => simp [ih, Piece.chars, Nat.add_assoc]

theorem length_tokens (k : Nat) (ps : List Piece) : (tokens k ps).length = ps.length := by
  induction ps generalizing k with
  | nil => rfl
  | cons p ps ih => rw [tokens_cons, List.length_cons, List.length_cons, ih]

theorem getElem?_tokens (k : Nat) (ps : List Piece) (i : Nat) :
    (tokens k ps)[i]? = ps[i]?.map fun p => p.token (k + String.utf8Len (chars (ps.take i))) := by
  induction ps generalizing k i with
  | nil => simp
  | cons p ps ih =>
      cases i with
      | zero => simp
      | succ i => simp [ih, Piece.chars, Nat.add_assoc]

theorem map_text_tokens (k : Nat) (ps : List Piece) :
    (tokens k ps).map Token.text = ps.map fun p => String.ofList p.lexeme.chars := by
  induction ps generalizing k with
  | nil => rfl
  | cons p ps ih => simp [ih, Piece.token, Token.ofText]

/-- A token of a list of pieces is the token of one of them, at the offset where it begins, and
the tokens before it are those of the pieces before. -/
theorem exists_of_tokens_eq {k : Nat} {ps : List Piece} {earlier later : List Token} {t : Token}
    (h : tokens k ps = earlier ++ t :: later) :
    ∃ before p after, ps = before ++ p :: after ∧ earlier = tokens k before ∧
      t = p.token (k + String.utf8Len (chars before)) := by
  induction ps generalizing k earlier with
  | nil => simp at h
  | cons q ps ih =>
      cases earlier with
      | nil =>
          obtain ⟨rfl, -⟩ := List.cons.inj h
          exact ⟨[], q, ps, rfl, rfl, by simp⟩
      | cons u earlier =>
          obtain ⟨rfl, htail⟩ := List.cons.inj h
          obtain ⟨before, p, after, rfl, rfl, rfl⟩ := ih htail
          refine ⟨q :: before, p, after, rfl, rfl, ?_⟩
          rw [chars_cons, String.utf8Len_append, ← Nat.add_assoc]
          rfl

theorem mem_tokens {k : Nat} {ps : List Piece} {t : Token} (h : t ∈ tokens k ps) :
    ∃ before p after, ps = before ++ p :: after ∧
      t = p.token (k + String.utf8Len (chars before)) := by
  obtain ⟨earlier, later, hsplit⟩ := List.append_of_mem h
  obtain ⟨before, p, after, hps, -, ht⟩ := exists_of_tokens_eq hsplit
  exact ⟨before, p, after, hps, ht⟩

end Pieces

theorem Lexeme.exists_cons (w : Lexeme) :
    ∃ c cs, w.chars = c :: cs ∧ isTokenChar c := by
  obtain ⟨c, cs, h⟩ := List.exists_cons_of_ne_nil w.spells.ne_nil
  exact ⟨c, cs, h, w.spells.isTokenChar c (by simp [h])⟩

theorem Lexeme.isDigit_of_head (w : Lexeme) {d : Char} (hd : d ∈ w.chars.head?)
    (hdigit : d.isDigit) : ∀ e ∈ w.chars, e.isDigit := by
  obtain ⟨kind, chars, spells⟩ := w
  obtain ⟨ds, rfl⟩ := List.head?_eq_some_iff.mp hd
  generalize htext : d :: ds = text at spells
  cases spells with
  | word hw =>
      subst htext
      have halpha := hw.1
      rw [isAlpha_of_isDigit hdigit] at halpha
      simp at halpha
  | number hw =>
      subst htext
      exact hw.2
  | greaterEqual =>
      rw [(List.cons.inj htext).1] at hdigit
      exact absurd hdigit (by decide)
  | operator hop =>
      have halnum := isAlphanum_of_ofOperator? hop
      rw [← (List.cons.inj htext).1, isAlphanum_of_isDigit hdigit] at halnum
      simp at halnum

/-- Two lexemes merge exactly when the first is continued by the head of the second. -/
theorem Lexeme.merge_iff (v w : Lexeme) : v.Merge w ↔ swallows v.chars w.chars = true := by
  obtain ⟨d, ds, hw, -⟩ := w.exists_cons
  have hdigits : d.isDigit → ∀ e ∈ w.chars, e.isDigit := w.isDigit_of_head (by simp [hw])
  obtain ⟨kind, chars, spells⟩ := v
  unfold Merge
  rw [hw, swallows]
  rw [hw] at hdigits
  cases spells with
  | @word text hword =>
      obtain ⟨c, cs, rfl⟩ := List.exists_cons_of_ne_nil hword.ne_nil
      have hc : c.isAlpha := hword.1
      have hne : c ≠ '>' := by
        intro he
        subst he
        exact absurd hc (by decide)
      rw [hword.continues]
      simp [hc, hne, Lexeme.isDigit_of_isAlpha hc]
  | @number text hnum =>
      obtain ⟨c, cs, rfl⟩ := List.exists_cons_of_ne_nil hnum.1
      have hc : c.isDigit := hnum.2 c (by simp)
      have hne : c ≠ '>' := by
        intro he
        subst he
        exact absurd hc (by decide)
      rw [hnum.continues]
      constructor
      · intro hmerge
        rcases hmerge with ⟨⟨e, he, halpha⟩, -⟩ | ⟨-, hall⟩ | ⟨heq, -⟩
        · rw [List.head?_cons, Option.mem_some_iff] at he
          rw [← he, isAlpha_of_isDigit hc] at halpha
          simp at halpha
        · exact hall d (by simp)
        · exact absurd (List.cons.inj heq).1 hne
      · intro hd
        exact Or.inr (Or.inl ⟨hnum.2, hdigits hd⟩)
  | greaterEqual => simp [continues]
  | @operator c kind hop =>
      have hc := isAlphanum_of_ofOperator? hop
      simp only [Char.isAlphanum, Bool.or_eq_false_iff] at hc
      rw [Lexeme.continues_operator hop]
      simp [hc.1, hc.2]

/-! ## Where a lexeme is over -/

theorem stops_gap (v : List Char) (g : Gap) (cs : List Char) :
    Stops v (g.chars ++ cs) ↔ (g.chars = [] → Stops v cs) := by
  obtain ⟨gs, idle⟩ := g
  cases gs with
  | nil => simp
  | cons c gs => simp [Lexeme.continues_of_not_isTokenChar (idle c (by simp)) v]

theorem stops_iff (v : Lexeme) (ps : List Piece) (g : Gap) :
    Stops v.chars (Pieces.chars ps ++ g.chars) ↔
      ∀ q ∈ ps.head?, q.gap.chars = [] → ¬ v.Merge q.lexeme := by
  cases ps with
  | nil =>
      have := stops_gap v.chars g []
      simpa using this
  | cons q ps =>
      obtain ⟨c, cs, hc, -⟩ := q.lexeme.exists_cons
      rw [Pieces.chars_cons, List.append_assoc, List.append_assoc, stops_gap]
      simp [Lexeme.merge_iff, hc, swallows]

/-! ## A layout keeps its promise when it is separated -/

theorem lexemes_of_isChain {ps : List Piece} (h : ps.IsChain Piece.Apart) (g : Gap) (k : Nat) :
    lexemes k (Pieces.chars ps ++ g.chars) = Pieces.tokens k ps := by
  induction ps generalizing k with
  | nil =>
      have := Lexeme.lexemes_skip_all g.idle k []
      simpa using this
  | cons p ps ih =>
      obtain ⟨hhead, htail⟩ := List.isChain_cons.mp h
      have hstops : Stops p.lexeme.chars (Pieces.chars ps ++ g.chars) :=
        (stops_iff p.lexeme ps g).mpr hhead
      rw [Pieces.chars_cons, List.append_assoc, List.append_assoc,
        Lexeme.lexemes_skip_all p.gap.idle, Lexeme.lexemes_append p.lexeme.spells hstops, ih htail]
      simp [Piece.token, Piece.chars, Nat.add_assoc]

/--
A layout whose texts are found again is separated.

If the lexeme `p` is not over before the pieces that follow it, then the longest lexeme there
is longer than `p`, and the first text found is not the first one laid out.
-/
theorem isChain_of_texts {ps : List Piece} {g : Gap} {k : Nat}
    (h : (lexemes k (Pieces.chars ps ++ g.chars)).map Token.text =
      ps.map fun p => String.ofList p.lexeme.chars) : ps.IsChain Piece.Apart := by
  induction ps generalizing k with
  | nil => exact List.isChain_nil
  | cons p ps ih =>
      rw [Pieces.chars_cons, List.append_assoc, List.append_assoc,
        Lexeme.lexemes_skip_all p.gap.idle] at h
      by_cases hstops : Stops p.lexeme.chars (Pieces.chars ps ++ g.chars)
      · rw [Lexeme.lexemes_append p.lexeme.spells hstops] at h
        simp only [List.map_cons, List.cons.injEq] at h
        exact List.isChain_cons.mpr ⟨(stops_iff p.lexeme ps g).mp hstops, ih h.2⟩
      · -- what is found first is longer than `p`
        exfalso
        obtain ⟨d, hd, hcont⟩ : ∃ d ∈ (Pieces.chars ps ++ g.chars).head?,
            continues p.lexeme.chars d = true := by
          simpa [Stops] using hstops
        obtain ⟨cs, hcs⟩ := List.head?_eq_some_iff.mp hd
        obtain ⟨kind, more, rest, hsplit, hmore, hk, hs⟩ :=
          p.lexeme.spells.exists_longer hcont
        rw [hcs, hsplit, ← List.append_assoc, Lexeme.lexemes_append hk hs] at h
        have hhead := (List.cons.inj h).1
        rw [Token.ofText, String.ofList_inj] at hhead
        exact hmore (by simpa using hhead)

theorem tokens_tokenize_ofList (cs : List Char) :
    (tokenize (String.ofList cs)).tokens.toList = lexemes 0 cs := by
  have := Scanner.tokens_scan (String.ofList cs)
  rwa [String.toList_ofList] at this

/-- **A layout keeps its promise exactly when it is separated.** -/
theorem Layout.lexemes_chars_iff (l : Layout) (k : Nat) :
    lexemes k l.chars = l.tokens k ↔ l.Separated := by
  constructor
  · intro h
    refine @isChain_of_texts l.pieces l.last k ?_
    rw [← Pieces.map_text_tokens k]
    exact congrArg _ h
  · intro h
    exact lexemes_of_isChain h l.last k

/-! ## Two layouts in a row -/

def Gap.single (c : Char) (h : isTokenChar c = false) : Gap where
  chars := [c]
  idle := by simpa using h

/-- One gap after another. -/
def Gap.append (g g' : Gap) : Gap where
  chars := g.chars ++ g'.chars
  idle := by
    intro c hc
    rcases List.mem_append.mp hc with hc | hc
    · exact g.idle c hc
    · exact g'.idle c hc

namespace Layout

def after (g : Gap) (l : Layout) : Layout :=
  match l.pieces with
  | [] => ⟨[], g.append l.last⟩
  | p :: ps => ⟨⟨g.append p.gap, p.lexeme⟩ :: ps, l.last⟩

/-- One layout after another. The gap between them is one gap. -/
def append (a b : Layout) : Layout :=
  ⟨a.pieces ++ (b.after a.last).pieces, (b.after a.last).last⟩

theorem chars_after (g : Gap) (l : Layout) : (l.after g).chars = g.chars ++ l.chars := by
  obtain ⟨ps, last⟩ := l
  cases ps with
  | nil => simp [after, chars, Gap.append]
  | cons p ps => simp [after, chars, Gap.append]

theorem chars_append (a b : Layout) : (a.append b).chars = a.chars ++ b.chars := by
  have := chars_after a.last b
  unfold chars at this ⊢
  rw [append, Pieces.chars_append, List.append_assoc, this, List.append_assoc]

theorem tokens_after (g : Gap) (l : Layout) (k : Nat) :
    (l.after g).tokens k = l.tokens (k + String.utf8Len g.chars) := by
  obtain ⟨ps, last⟩ := l
  cases ps with
  | nil => rfl
  | cons p ps => simp [after, tokens, Piece.token, Piece.chars, Gap.append, Nat.add_assoc]

theorem tokens_append (a b : Layout) (k : Nat) :
    (a.append b).tokens k = a.tokens k ++ b.tokens (k + String.utf8Len a.chars) := by
  have hb := tokens_after a.last b (k + String.utf8Len (Pieces.chars a.pieces))
  rw [tokens, append, Pieces.tokens_append]
  rw [Nat.add_assoc, ← String.utf8Len_append] at hb
  exact congrArg _ hb

theorem separated_after (g : Gap) (l : Layout) : (l.after g).Separated ↔ l.Separated := by
  obtain ⟨ps, last⟩ := l
  cases ps with
  | nil => exact Iff.rfl
  | cons p ps =>
      -- how far a piece reaches does not hang on the gap before it
      unfold Separated after
      rw [List.isChain_cons, List.isChain_cons]
      exact Iff.rfl

/-- Two layouts in a row are separated if each is, and the seam between them is. -/
theorem separated_append (a b : Layout) : (a.append b).Separated ↔
    a.Separated ∧ b.Separated ∧
      ∀ p ∈ a.pieces.getLast?, ∀ q ∈ (b.after a.last).pieces.head?, p.Apart q := by
  rw [← separated_after a.last b]
  exact List.isChain_append

/-! ## Every text has a separated layout -/

theorem exists_separated (cs : List Char) : ∃ l : Layout, l.Separated ∧ l.chars = cs := by
  induction cs using Lexeme.text_induction with
  | nil => exact ⟨⟨[], ⟨[], by simp⟩⟩, List.isChain_nil, rfl⟩
  | skip c cs hc ih =>
      -- a character that belongs to no lexeme joins the first gap
      obtain ⟨l, hsep, rfl⟩ := ih
      refine ⟨l.after (Gap.single c hc), (separated_after _ l).mpr hsep, ?_⟩
      rw [chars_after]
      rfl
  | take kind w rest hk hs ih =>
      -- the lexeme is over, so it is apart from what comes first behind it
      obtain ⟨l, hsep, rfl⟩ := ih
      refine ⟨⟨⟨⟨[], by simp⟩, ⟨kind, w, hk⟩⟩ :: l.pieces, l.last⟩, ?_, ?_⟩
      · exact List.isChain_cons.mpr ⟨(stops_iff ⟨kind, w, hk⟩ l.pieces l.last).mp hs, hsep⟩
      · simp [chars]

/-- Tokenizing finds what is laid out with no lexeme running into the next. -/
theorem tokens_tokenize (l : Layout) (h : l.Separated) :
    (tokenize (String.ofList l.chars)).tokens.toList = l.tokens 0 := by
  rw [tokens_tokenize_ofList]
  exact (lexemes_chars_iff l 0).mpr h

/-- Every source is a separated layout, and its tokens are the ones that the layout promises. -/
theorem exists_of_source (source : String) : ∃ l : Layout, l.Separated ∧
    source.toList = l.chars ∧ (tokenize source).tokens.toList = Pieces.tokens 0 l.pieces := by
  obtain ⟨l, hsep, hchars⟩ := exists_separated source.toList
  refine ⟨l, hsep, hchars.symm, ?_⟩
  have := l.tokens_tokenize hsep
  rwa [hchars, String.ofList_toList] at this

/-- What is before the last gap has no more bytes than the source. -/
theorem utf8Len_pieces_lt {source : String} {l : Layout} (h : source.toList = l.chars) {n : Nat}
    (hn : source.utf8ByteSize < n) : 0 + String.utf8Len (Pieces.chars l.pieces) < n := by
  rw [← String.utf8Len_toList, h, chars, String.utf8Len_append] at hn
  omega

end Layout

/--
**Tokenizing undoes writing lexemes down.**

Whatever stands in the gaps, the texts that are found are those of the lexemes, in their order,
exactly when no two lexemes that merge have an empty gap between them. Then the tokens are found
as a whole: there is one for each lexeme, of the kind that its text has, and it begins where the
lexeme was written and ends with it.
-/
theorem tokenize_chars_iff (l : Layout) :
    ((tokenize (String.ofList l.chars)).tokens.toList.map Token.text =
        l.pieces.map (fun p => String.ofList p.lexeme.chars) ↔ l.Separated) ∧
      ((tokenize (String.ofList l.chars)).tokens.toList = l.tokens 0 ↔ l.Separated) ∧
      (l.tokens 0).length = l.pieces.length ∧
      (∀ (i : Nat) (p : Piece), l.pieces[i]? = some p → ∃ t, (l.tokens 0)[i]? = some t ∧
        t.Describes p.lexeme.kind p.lexeme.chars
          (String.utf8Len (Pieces.chars (l.pieces.take i) ++ p.gap.chars))) ∧
      ∀ w : Lexeme, Lexeme.kind? w.chars = some w.kind := by
  rw [tokens_tokenize_ofList]
  refine ⟨⟨?_, ?_⟩, l.lexemes_chars_iff 0, Pieces.length_tokens 0 l.pieces, ?_, ?_⟩
  · exact isChain_of_texts
  · intro h
    rw [(l.lexemes_chars_iff 0).mpr h]
    exact Pieces.map_text_tokens 0 l.pieces
  · intro i p hp
    refine ⟨_, ?_, Token.describes_iff.mpr rfl⟩
    rw [Layout.tokens, Pieces.getElem?_tokens, hp, String.utf8Len_append, Nat.zero_add]
    rfl
  · intro w
    exact Lexeme.kind?_eq_some_iff.mpr w.spells

end MiniLexer
