import MiniLexer.Proofs.Places
import MiniLexer.Proofs.Respacing

/-!
# Characters of one class are alike

Of a character the scanner sees its class, whether it is an operator, and whether it is one of the
three letters of the keyword. A map that keeps all of that is a renaming (`Renaming`), and
tokenizing commutes with it. The renamed source has the tokens of the source, of the same kinds,
with their texts renamed and behind as many characters. Only offsets may differ, where a
character takes another number of bytes.

A renaming carries lexemes to lexemes of their kinds, because no word becomes or ceases to be
the keyword (`Renaming.spells`), and gaps to gaps. Whether one lexeme is continued by another it
leaves as it was (`Renaming.continues_map`). So it carries the separated layout of a source
piece by piece to one of the renamed source.
-/

namespace MiniLexer

open Lexeme (Spells IsWord IsNumber isTokenChar isAlpha_of_isDigit isDigit_of_isAlpha)

/-- A map of characters that keeps all that the scanner sees of them. -/
structure Renaming (f : Char → Char) : Prop where
  operator : ∀ c, (TokenKind.ofOperator? c).isSome → f c = c
  /-- The letters of the keyword stay. -/
  keyword : ∀ c ∈ ['i', 'n', 't'], f c = c
  /-- Other letters become letters that are not of the keyword. -/
  letter : ∀ c, c.isAlpha → c ∉ ['i', 'n', 't'] → (f c).isAlpha ∧ f c ∉ ['i', 'n', 't']
  digit : ∀ c, c.isDigit → (f c).isDigit
  /-- What belongs to no lexeme, blank or not, becomes something else that belongs to none. -/
  idle : ∀ c, isTokenChar c = false → isTokenChar (f c) = false

/-- What it means that tokenizing commutes with a map of characters. -/
structure Renamed (f : Char → Char) (source : String) : Prop where
  /-- There are as many tokens, of the same kinds, and their texts are mapped. -/
  readings : readings (source.map f) = (readings source).map fun r => (r.1, r.2.map f)
  /-- Tokens of the same number stand behind the same number of characters, and of tokens. -/
  places : ∀ (i : Nat) (t u : Token), (tokenize source).tokens.toList[i]? = some t →
    (tokenize (source.map f)).tokens.toList[i]? = some u →
      ∃ before rest, source.toList = before ++ rest ∧
        (tokensOf before).length = i ∧ (tokensOf (before.map f)).length = i ∧
        t.Stands before rest ∧ u.Stands (before.map f) (rest.map f)
  /-- Where no character changes its size, the offsets are the same. -/
  spans : (∀ c, (f c).utf8Size = c.utf8Size) →
    (tokenize (source.map f)).tokens.toList.map Token.span =
      (tokenize source).tokens.toList.map Token.span

namespace Renaming

variable {f : Char → Char}

/-! ## One character -/

/-- The four sorts of characters, each of which is kept. -/
theorem cases (hf : Renaming f) (c : Char) :
    c.isAlpha ∧ (f c).isAlpha ∨ c.isDigit ∧ (f c).isDigit ∨
      (TokenKind.ofOperator? c).isSome ∧ f c = c ∨
        isTokenChar c = false ∧ isTokenChar (f c) = false := by
  cases hc : isTokenChar c with
  | false => exact Or.inr (Or.inr (Or.inr ⟨rfl, hf.idle c hc⟩))
  | true =>
      rw [isTokenChar, Bool.or_eq_true, Char.isAlphanum, Bool.or_eq_true] at hc
      rcases hc with (halpha | hdigit) | hop
      · refine Or.inl ⟨halpha, ?_⟩
        by_cases hint : c ∈ ['i', 'n', 't']
        · rw [hf.keyword c hint]
          exact halpha
        · exact (hf.letter c halpha hint).1
      · exact Or.inr (Or.inl ⟨hdigit, hf.digit c hdigit⟩)
      · exact Or.inr (Or.inr (Or.inl ⟨hop, hf.operator c hop⟩))

theorem isAlpha_map (hf : Renaming f) (c : Char) : (f c).isAlpha = c.isAlpha := by
  rcases hf.cases c with ⟨h, h'⟩ | ⟨h, h'⟩ | ⟨-, h'⟩ | ⟨h, h'⟩
  · rw [h, h']
  · rw [isAlpha_of_isDigit h, isAlpha_of_isDigit h']
  · rw [h']
  · simp only [isTokenChar, Char.isAlphanum, Bool.or_eq_false_iff] at h h'
    rw [h.1.1, h'.1.1]

theorem isDigit_map (hf : Renaming f) (c : Char) : (f c).isDigit = c.isDigit := by
  rcases hf.cases c with ⟨h, h'⟩ | ⟨h, h'⟩ | ⟨-, h'⟩ | ⟨h, h'⟩
  · rw [isDigit_of_isAlpha h, isDigit_of_isAlpha h']
  · rw [h, h']
  · rw [h']
  · simp only [isTokenChar, Char.isAlphanum, Bool.or_eq_false_iff] at h h'
    rw [h.1.2, h'.1.2]

theorem isAlphanum_map (hf : Renaming f) (c : Char) : (f c).isAlphanum = c.isAlphanum := by
  rw [Char.isAlphanum, Char.isAlphanum, hf.isAlpha_map, hf.isDigit_map]

/-- Only a letter of the keyword becomes one. -/
theorem map_eq_iff_of_keyword (hf : Renaming f) {c d : Char} (hd : d ∈ ['i', 'n', 't']) :
    f c = d ↔ c = d := by
  constructor
  · intro h
    have hc : c.isAlpha := by
      rw [← hf.isAlpha_map, h]
      exact Lexeme.isAlpha_of_mem_int hd
    by_cases hint : c ∈ ['i', 'n', 't']
    · rw [← h, hf.keyword c hint]
    · exact absurd (h ▸ hd) (hf.letter c hc hint).2
  · rintro rfl
    exact hf.keyword c hd

/-- Only the equals sign becomes one. -/
theorem map_eq_equals_iff (hf : Renaming f) {c : Char} : f c = '=' ↔ c = '=' := by
  constructor
  · intro h
    rcases hf.cases c with ⟨-, h'⟩ | ⟨-, h'⟩ | ⟨-, h'⟩ | ⟨-, h'⟩
    · rw [h] at h'
      exact absurd h' (by decide)
    · rw [h] at h'
      exact absurd h' (by decide)
    · rw [← h, h']
    · rw [h] at h'
      exact absurd h' (by decide)
  · rintro rfl
    exact hf.operator '=' rfl

/-! ## One lexeme -/

theorem isWord_map (hf : Renaming f) {w : List Char} (h : IsWord w) : IsWord (w.map f) := by
  cases w with
  | nil => exact h
  | cons c cs =>
      refine ⟨(hf.isAlpha_map c).trans h.1, ?_⟩
      intro d hd
      obtain ⟨e, he, rfl⟩ := List.mem_map.mp hd
      exact (hf.isAlphanum_map e).trans (h.2 e he)

theorem isNumber_map (hf : Renaming f) {w : List Char} (h : IsNumber w) :
    IsNumber (w.map f) := by
  refine ⟨by simpa using h.1, ?_⟩
  intro d hd
  obtain ⟨e, he, rfl⟩ := List.mem_map.mp hd
  exact hf.digit e (h.2 e he)

/-- No word becomes the keyword, and the keyword stays. -/
theorem ofWord_map (hf : Renaming f) (w : List Char) :
    TokenKind.ofWord (w.map f) = .ofWord w := by
  have hfixed : ∀ v : List Char, (∀ c ∈ v, f c = c) → v.map f = v := by
    intro v hv
    exact (List.map_congr_left hv).trans (List.map_id' v)
  have hiff : w.map f = ['i', 'n', 't'] ↔ w = ['i', 'n', 't'] := by
    constructor
    · intro h
      refine (hfixed w ?_).symm.trans h
      intro c hc
      have hd : f c ∈ ['i', 'n', 't'] := by
        rw [← h]
        exact List.mem_map_of_mem hc
      exact ((hf.map_eq_iff_of_keyword hd).mp rfl).symm
    · rintro rfl
      exact hfixed _ hf.keyword
  simp only [TokenKind.ofWord, hiff]

/-- **A lexeme becomes a lexeme of its kind.** -/
theorem spells (hf : Renaming f) {kind : TokenKind} {w : List Char} (h : Spells kind w) :
    Spells kind (w.map f) := by
  cases h with
  | word hw =>
      rw [← hf.ofWord_map]
      exact .word (hf.isWord_map hw)
  | number hw => exact .number (hf.isNumber_map hw)
  | greaterEqual =>
      rw [List.map_cons, List.map_cons, List.map_nil, hf.operator '>' rfl, hf.operator '=' rfl]
      exact .greaterEqual
  | operator hop =>
      rw [List.map_singleton, hf.operator _ (by simp [hop])]
      exact .operator hop

/-- A lexeme is continued by what continued it before. -/
theorem continues_map (hf : Renaming f) {kind : TokenKind} {w : List Char} (h : Spells kind w)
    (d : Char) : Lexeme.continues (w.map f) (f d) = Lexeme.continues w d := by
  rw [h.continues_eq, (hf.spells h).continues_eq]
  cases kind <;>
    simp [TokenKind.continuedBy, hf.isAlphanum_map, hf.isDigit_map, hf.map_eq_equals_iff]

/-! ## One layout -/

section
variable (hf : Renaming f)

def gap (g : Gap) : Gap where
  chars := g.chars.map f
  idle := by
    intro c hc
    obtain ⟨d, hd, rfl⟩ := List.mem_map.mp hc
    exact hf.idle d (g.idle d hd)

def lexeme (w : Lexeme) : Lexeme where
  kind := w.kind
  chars := w.chars.map f
  spells := hf.spells w.spells

def piece (p : Piece) : Piece := ⟨hf.gap p.gap, hf.lexeme p.lexeme⟩

def layout (l : Layout) : Layout := ⟨l.pieces.map hf.piece, hf.gap l.last⟩

theorem chars_pieces (ps : List Piece) :
    Pieces.chars (ps.map hf.piece) = (Pieces.chars ps).map f := by
  induction ps with
  | nil => rfl
  | cons p ps ih => simp [ih, piece, gap, lexeme]

theorem chars_layout (l : Layout) : (hf.layout l).chars = l.chars.map f := by
  rw [Layout.chars, Layout.chars, List.map_append, ← hf.chars_pieces]
  rfl

theorem merge_iff (v w : Lexeme) : (hf.lexeme v).Merge (hf.lexeme w) ↔ v.Merge w := by
  obtain ⟨c, cs, hc, -⟩ := w.exists_cons
  have hmap : (hf.lexeme w).chars = f c :: cs.map f := by
    show w.chars.map f = _
    rw [hc, List.map_cons]
  rw [Lexeme.merge_iff, Lexeme.merge_iff, hmap, hc, Lexeme.swallows, Lexeme.swallows]
  exact Eq.congr (hf.continues_map v.spells c) rfl

theorem apart {p q : Piece} (h : p.Apart q) : (hf.piece p).Apart (hf.piece q) := by
  intro hgap
  rw [piece, piece, hf.merge_iff]
  exact h (by simpa [piece, gap] using hgap)

theorem separated {l : Layout} (h : l.Separated) : (hf.layout l).Separated := by
  rw [Layout.Separated, layout, List.isChain_map]
  exact List.IsChain.imp (fun p q => hf.apart) h

theorem map_reading (p : Piece) :
    (hf.piece p).lexeme.reading = (p.lexeme.reading.1, p.lexeme.reading.2.map f) := by
  have htext : (String.ofList p.lexeme.chars).map f = String.ofList (p.lexeme.chars.map f) := by
    rw [← String.toList_inj, String.toList_map, String.toList_ofList, String.toList_ofList]
  rw [Lexeme.reading, Lexeme.reading, htext]
  rfl

theorem utf8Len_map (hsize : ∀ c, (f c).utf8Size = c.utf8Size) (cs : List Char) :
    String.utf8Len (cs.map f) = String.utf8Len cs := by
  induction cs with
  | nil => rfl
  | cons c cs ih => simp [ih, hsize]

theorem map_span_tokens (hsize : ∀ c, (f c).utf8Size = c.utf8Size) (k : Nat) (ps : List Piece) :
    (Pieces.tokens k (ps.map hf.piece)).map Token.span =
      (Pieces.tokens k ps).map Token.span := by
  induction ps generalizing k with
  | nil => rfl
  | cons p ps ih =>
      have hchars : String.utf8Len (hf.piece p).chars = String.utf8Len p.chars := by
        rw [← utf8Len_map hsize p.chars, Piece.chars, Piece.chars, List.map_append]
        rfl
      have hspan : ((hf.piece p).token k).span = (p.token k).span := by
        show Span.ofText (String.ofList (p.lexeme.chars.map f))
          (k + String.utf8Len (p.gap.chars.map f)) = Span.ofText _ _
        simp only [Span.ofText, String.utf8ByteSize_ofList, utf8Len_map hsize]
      rw [List.map_cons, Pieces.tokens_cons, Pieces.tokens_cons, List.map_cons, List.map_cons,
        hspan, hchars, ih]

end

end Renaming

/-- A piece and its image stand behind the same number of characters, and of pieces. -/
theorem Renaming.stands {f : Char → Char} (hf : Renaming f) {l : Layout} (h : l.Separated)
    {ps qs : List Piece} {p : Piece} (hl : l.pieces = ps ++ p :: qs) :
    ∃ before rest, l.chars = before ++ rest ∧
      (tokensOf before).length = ps.length ∧ (tokensOf (before.map f)).length = ps.length ∧
      (p.token (String.utf8Len (Pieces.chars ps))).Stands before rest ∧
      ((hf.piece p).token (String.utf8Len (Pieces.chars (ps.map hf.piece)))).Stands
        (before.map f) (rest.map f) := by
  have hl' : (hf.layout l).pieces = ps.map hf.piece ++ hf.piece p :: qs.map hf.piece := by
    rw [layout, hl, List.map_append, List.map_cons]
  obtain ⟨hfront, -, hstands⟩ := Layout.stands h hl
  obtain ⟨hfront', -, hstands'⟩ := Layout.stands (hf.separated h) hl'
  have hbefore : (Pieces.chars ps ++ p.gap.chars).map f =
      Pieces.chars (ps.map hf.piece) ++ (hf.piece p).gap.chars := by
    rw [List.map_append, ← hf.chars_pieces]
    rfl
  refine ⟨_, _, ?_, ?_, ?_, hstands, ?_⟩
  · rw [Layout.chars, hl]
    simp
  · rw [hfront, Pieces.length_tokens]
  · rw [hbefore, hfront', Pieces.length_tokens, List.length_map]
  · rw [hbefore, List.map_append, List.map_append, ← hf.chars_pieces]
    exact hstands'

/-! ## At the top -/

/--
**Tokenizing sees no more of a character than its class, the operators and `i`, `n` and `t`.**

So it finds the same in two sources that differ by a renaming.
-/
theorem renamed_tokenize {f : Char → Char} (hf : Renaming f) (source : String) :
    Renamed f source := by
  obtain ⟨l, hsep, hchars, htokens⟩ := Layout.exists_of_source source
  have hsep' := hf.separated hsep
  have hsource : source.map f = String.ofList (hf.layout l).chars := by
    rw [← String.toList_inj, String.toList_map, String.toList_ofList, hchars, hf.chars_layout]
  have htokens' : (tokenize (source.map f)).tokens.toList =
      Pieces.tokens 0 (l.pieces.map hf.piece) := by
    rw [hsource]
    exact (hf.layout l).tokens_tokenize hsep'
  refine ⟨?_, ?_, ?_⟩
  · rw [readings, readings, htokens, htokens', Pieces.map_reading_tokens,
      Pieces.map_reading_tokens, List.map_map, List.map_map]
    exact List.map_congr_left fun p _ => hf.map_reading p
  · -- tokens of the same number are those of a piece and its image
    intro i t u ht hu
    rw [htokens, Pieces.getElem?_tokens, Option.map_eq_some_iff] at ht
    obtain ⟨p, hp, rfl⟩ := ht
    rw [htokens', Pieces.getElem?_tokens, List.getElem?_map, hp, ← List.map_take] at hu
    obtain rfl := Option.some.inj hu
    obtain ⟨hi, hget⟩ := List.getElem?_eq_some_iff.mp hp
    have hsplit : l.pieces = l.pieces.take i ++ p :: l.pieces.drop (i + 1) := by
      rw [← hget, ← List.drop_eq_getElem_cons hi, List.take_append_drop]
    have hstands := hf.stands hsep hsplit
    rw [List.length_take_of_le (Nat.le_of_lt hi)] at hstands
    rw [hchars, Nat.zero_add, Nat.zero_add]
    exact hstands
  · intro hsize
    rw [htokens, htokens']
    exact hf.map_span_tokens hsize 0 l.pieces

/-- One letter, one digit and the blank become others of their sort. -/
def disguise : Char → Char
  | 'x' => 'A'
  | '1' => '7'
  | ' ' => '@'
  | c => c

theorem renaming_disguise : Renaming disguise where
  operator := by
    intro c hc
    unfold disguise
    split
    case h_4 => rfl
    all_goals exact absurd hc (by decide)
  keyword := by simp [disguise]
  letter := by
    intro c hc hint
    unfold disguise
    split
    case h_1 => decide
    case h_4 => exact ⟨hc, hint⟩
    all_goals exact absurd hc (by decide)
  digit := by
    intro c hc
    unfold disguise
    split
    case h_2 => decide
    case h_4 => exact hc
    all_goals exact absurd hc (by decide)
  idle := by
    intro c hc
    unfold disguise
    split
    case h_3 => decide
    case h_4 => exact hc
    all_goals exact absurd hc (by decide)

theorem renamed_tokenize_disguise :
    Renaming disguise ∧ Renamed disguise "int x1 9int>=" ∧
      "int x1 9int>=".map disguise = "int@A7@9int>=" :=
  ⟨renaming_disguise, renamed_tokenize renaming_disguise _, by decide +kernel⟩

end MiniLexer
