import MiniLexer.Proofs.Layout

/-!
# The tokens of a source tile it

A source below 2³² bytes can be read off its tokens, up to the characters that belong to no
lexeme. Their spans are cut from it in order, without overlap, and cover exactly the characters
of lexemes; each has the shape of its kind; and where one span touches the next, the two tokens
could not have been one.

All of it is proved of the pieces of a separated layout, by induction, with the offset at which
they begin as a parameter. The bound on the size is what makes the 32-bit ends of a span the
true offsets (`Piece.span_token`).
-/

namespace MiniLexer

open Lexeme (Spells isTokenChar)

/-- What it means that tokens account for a source. -/
structure Tiling (source : String) (tokens : List Token) : Prop where
  /-- A span is not empty, and what it cuts out of the source is the text of its token. -/
  cut : ∀ t ∈ tokens, t.span.start.toNat < t.span.stop.toNat ∧
    ∃ before after : String, source = before ++ t.text ++ after ∧
      before.utf8ByteSize = t.span.start.toNat ∧
      (before ++ t.text).utf8ByteSize = t.span.stop.toNat
  /-- Spans increase and do not overlap. -/
  ordered : tokens.Pairwise fun t u =>
    t.span.start.toNat < u.span.start.toNat ∧ t.span.stop.toNat ≤ u.span.start.toNat
  /-- A character lies in a span exactly when it belongs to lexemes. -/
  covered : ∀ (before after : List Char) (c : Char), source.toList = before ++ c :: after →
    (isTokenChar c ↔ ∃ t ∈ tokens, t.span.start.toNat ≤ String.utf8Len before ∧
      String.utf8Len before < t.span.stop.toNat)
  /-- One after another, the texts are the source without the characters of gaps. -/
  texts : tokens.flatMap (fun t => t.text.toList) = source.toList.filter isTokenChar
  /-- A text has the shape of its kind. -/
  shaped : ∀ t ∈ tokens, Spells t.kind t.text.toList
  /-- Of two tokens that touch, the second does not begin with what continues the first. -/
  maximal : tokens.Pairwise fun t u => t.span.stop.toNat = u.span.start.toNat →
    ∀ c ∈ u.text.toList.head?, t.kind.continuedBy c = false

/-! ## Offsets of pieces -/

namespace Piece

/-- Below 2³² the two ends of a span are the true offsets. -/
theorem span_token (p : Piece) {k : Nat} (hk : k + String.utf8Len p.chars < UInt32.size) :
    (p.token k).span.start.toNat = k + String.utf8Len p.gap.chars ∧
      (p.token k).span.stop.toNat = k + String.utf8Len p.chars := by
  rw [chars, String.utf8Len_append] at hk
  constructor
  · show (Span.ofText _ _).start.toNat = _
    rw [Span.toNat_start_ofText, Nat.mod_eq_of_lt (by omega)]
  · show (Span.ofText _ _).stop.toNat = _
    rw [Span.toNat_stop_ofText, String.utf8ByteSize_ofList, chars, String.utf8Len_append,
      Nat.add_assoc, Nat.mod_eq_of_lt hk]

end Piece

namespace Pieces

variable {ps : List Piece} {k : Nat}

theorem bounds (hk : k + String.utf8Len (chars ps) < UInt32.size) {t : Token}
    (ht : t ∈ tokens k ps) :
    k ≤ t.span.start.toNat ∧ t.span.start.toNat < t.span.stop.toNat := by
  obtain ⟨before, p, after, rfl, rfl⟩ := mem_tokens ht
  have hpos := p.utf8Len_lexeme_pos
  have hlen := p.utf8Len_chars
  simp only [chars_append, chars_cons, String.utf8Len_append] at hk
  obtain ⟨hstart, hstop⟩ := p.span_token (k := k + String.utf8Len (chars before)) (by omega)
  omega

/-- What lies before a token are the pieces before its own, and its gap. -/
theorem cut (hk : k + String.utf8Len (chars ps) < UInt32.size) (g : Gap) {t : Token}
    (ht : t ∈ tokens k ps) :
    ∃ pre post, chars ps ++ g.chars = pre ++ t.text.toList ++ post ∧
      k + String.utf8Len pre = t.span.start.toNat ∧
      k + String.utf8Len (pre ++ t.text.toList) = t.span.stop.toNat := by
  obtain ⟨before, p, after, rfl, rfl⟩ := mem_tokens ht
  have hlen := p.utf8Len_chars
  simp only [chars_append, chars_cons, String.utf8Len_append] at hk
  obtain ⟨hstart, hstop⟩ := p.span_token (k := k + String.utf8Len (chars before)) (by omega)
  rw [Piece.toList_text_token]
  refine ⟨chars before ++ p.gap.chars, chars after ++ g.chars, ?_, ?_, ?_⟩
  · simp
  · rw [hstart, String.utf8Len_append]
    omega
  · rw [hstop, String.utf8Len_append, String.utf8Len_append]
    omega

theorem shaped {t : Token} (ht : t ∈ tokens k ps) : Spells t.kind t.text.toList := by
  obtain ⟨before, p, after, -, rfl⟩ := mem_tokens ht
  rw [Piece.toList_text_token]
  exact p.lexeme.spells

theorem ordered (hk : k + String.utf8Len (chars ps) < UInt32.size) :
    (tokens k ps).Pairwise fun t u =>
      t.span.start.toNat < u.span.start.toNat ∧ t.span.stop.toNat ≤ u.span.start.toNat := by
  induction ps generalizing k with
  | nil => exact List.Pairwise.nil
  | cons p ps ih =>
      have hpos := p.utf8Len_lexeme_pos
      have hlen := p.utf8Len_chars
      simp only [chars_cons, String.utf8Len_append] at hk
      obtain ⟨hstart, hstop⟩ := p.span_token (k := k) (by omega)
      refine List.pairwise_cons.mpr ⟨?_, ih (by omega)⟩
      intro u hu
      have := bounds (by omega) hu
      omega

/-- A character of a text in two parts stands in the first or in the second. -/
theorem of_append_eq {as bs pre post : List Char} {c : Char} (h : as ++ bs = pre ++ c :: post) :
    (∃ mid, as = pre ++ c :: mid) ∨ ∃ mid, pre = as ++ mid ∧ bs = mid ++ c :: post := by
  rcases List.append_eq_append_iff.mp h with ⟨mid, rfl, hbs⟩ | ⟨mid, rfl, hbs⟩
  · exact Or.inr ⟨mid, rfl, hbs⟩
  · cases mid with
    | nil => exact Or.inr ⟨[], by simp, hbs.symm⟩
    | cons d mid => exact Or.inl ⟨mid, by rw [(List.cons.inj hbs).1]⟩

theorem covered (hk : k + String.utf8Len (chars ps) < UInt32.size) {g : Gap}
    {pre post : List Char} {c : Char} (h : chars ps ++ g.chars = pre ++ c :: post) :
    isTokenChar c ↔ ∃ t ∈ tokens k ps, t.span.start.toNat ≤ k + String.utf8Len pre ∧
      k + String.utf8Len pre < t.span.stop.toNat := by
  induction ps generalizing k pre with
  | nil =>
      have hc := g.idle c (by rw [show g.chars = _ from h]; simp)
      simp [hc]
  | cons p ps ih =>
      have hlen := p.utf8Len_chars
      have hc := c.utf8Size_pos
      simp only [chars_cons, String.utf8Len_append] at hk
      obtain ⟨hstart, hstop⟩ := p.span_token (k := k) (by omega)
      have hlater : ∀ t ∈ tokens (k + String.utf8Len p.chars) ps,
          k + String.utf8Len p.chars ≤ t.span.start.toNat := by
        intro t ht
        exact (bounds (by omega) ht).1
      rw [chars_cons, List.append_assoc, List.append_assoc] at h
      rw [tokens_cons, List.exists_mem_cons_iff]
      rcases of_append_eq h with ⟨mid, hgap⟩ | ⟨pre', rfl, h'⟩
      · -- in the gap, before the first token
        have hidle := p.gap.idle c (by simp [hgap])
        have hbytes := congrArg String.utf8Len hgap
        simp only [String.utf8Len_append, String.utf8Len_cons] at hbytes
        rw [hidle]
        refine iff_of_false (by simp) ?_
        intro hspan
        rcases hspan with ht | ⟨t, ht, hle, -⟩
        · omega
        · have := hlater t ht
          omega
      · rcases of_append_eq h' with ⟨mid, hlex⟩ | ⟨pre'', rfl, h''⟩
        · -- in the first token
          have htok := p.lexeme.spells.isTokenChar c (by simp [hlex])
          have hbytes := congrArg String.utf8Len hlex
          simp only [String.utf8Len_append, String.utf8Len_cons] at hbytes ⊢
          refine iff_of_true htok (Or.inl ?_)
          omega
        · -- behind it
          have hrec := ih (k := k + String.utf8Len p.chars) (by omega) h''
          rw [hrec]
          simp only [String.utf8Len_append]
          have hoff : k + String.utf8Len p.chars + String.utf8Len pre'' =
              k + (String.utf8Len p.gap.chars + (String.utf8Len p.lexeme.chars +
                String.utf8Len pre'')) := by omega
          rw [hoff]
          constructor
          · exact Or.inr
          · intro hspan
            rcases hspan with ht | ht
            · omega
            · exact ht

theorem texts (k : Nat) (ps : List Piece) (g : Gap) :
    (tokens k ps).flatMap (fun t => t.text.toList) =
      (chars ps ++ g.chars).filter isTokenChar := by
  have hgap : ∀ g : Gap, g.chars.filter isTokenChar = [] := by
    intro g
    rw [List.filter_eq_nil_iff]
    intro c hc
    simp [g.idle c hc]
  induction ps generalizing k with
  | nil => simp [hgap]
  | cons p ps ih =>
      have hlex : p.lexeme.chars.filter isTokenChar = p.lexeme.chars :=
        List.filter_eq_self.mpr p.lexeme.spells.isTokenChar
      rw [tokens_cons, List.flatMap_cons, ih, chars_cons, List.append_assoc, List.append_assoc,
        List.filter_append (p.gap.chars), List.filter_append (p.lexeme.chars), hgap, hlex]
      simp

/-- Pieces that are apart stay apart as tokens that touch. -/
theorem maximal (hk : k + String.utf8Len (chars ps) < UInt32.size) (h : ps.IsChain Piece.Apart) :
    (tokens k ps).Pairwise fun t u => t.span.stop.toNat = u.span.start.toNat →
      ∀ c ∈ u.text.toList.head?, t.kind.continuedBy c = false := by
  induction ps generalizing k with
  | nil => exact List.Pairwise.nil
  | cons p ps ih =>
      obtain ⟨hhead, htail⟩ := List.isChain_cons.mp h
      simp only [chars_cons, String.utf8Len_append] at hk
      have hlen := p.utf8Len_chars
      obtain ⟨-, hstop⟩ := p.span_token (k := k) (by omega)
      refine List.pairwise_cons.mpr ⟨?_, ih (by omega) htail⟩
      intro u hu htouch c hc
      cases ps with
      | nil => simp at hu
      | cons q ps =>
          have hqlen := q.utf8Len_chars
          have hqpos := q.utf8Len_lexeme_pos
          simp only [chars_cons, String.utf8Len_append] at hk
          obtain ⟨hqstart, -⟩ := q.span_token (k := k + String.utf8Len p.chars) (by omega)
          rcases List.mem_cons.mp hu with hu | hu
          · -- the next piece has no gap, so what keeps the two apart are their texts
            subst hu
            have hgap : q.gap.chars = [] := by
              by_contra hne
              have := Text.utf8Len_pos hne
              omega
            have hmerge := hhead q rfl hgap
            rw [Piece.toList_text_token] at hc
            obtain ⟨cs, hcs⟩ := List.head?_eq_some_iff.mp hc
            rw [Lexeme.merge_iff, hcs, Bool.not_eq_true] at hmerge
            rw [Piece.kind_token, ← p.lexeme.spells.continues_eq]
            exact hmerge
          · -- a later piece cannot touch, with the next one between
            have := (bounds (by omega) hu).1
            omega

end Pieces

/-! ## At the top -/

/-- **Every source below 2³² bytes is tiled by its tokens.** -/
theorem tiling_tokenize (source : String) (h : source.utf8ByteSize < UInt32.size) :
    Tiling source (tokenize source).tokens.toList := by
  obtain ⟨l, hsep, hchars⟩ := Layout.exists_separated source.toList
  have hsource : source = String.ofList l.chars := by rw [hchars, String.ofList_toList]
  have htokens : (tokenize source).tokens.toList = Pieces.tokens 0 l.pieces := by
    rw [hsource]
    exact l.tokens_tokenize hsep
  have hbytes : 0 + String.utf8Len (Pieces.chars l.pieces) < UInt32.size := by
    rw [← String.utf8Len_toList, ← hchars, Layout.chars, String.utf8Len_append] at h
    omega
  rw [htokens]
  refine ⟨?_, Pieces.ordered hbytes, ?_, ?_, ?_, Pieces.maximal hbytes hsep⟩
  · intro t ht
    obtain ⟨pre, post, hsplit, hstart, hstop⟩ := Pieces.cut hbytes l.last ht
    rw [Nat.zero_add] at hstart hstop
    refine ⟨(Pieces.bounds hbytes ht).2, String.ofList pre, String.ofList post, ?_, ?_, ?_⟩
    · rw [hsource, Layout.chars, hsplit, String.ofList_append, String.ofList_append,
        String.ofList_toList]
    · rw [String.utf8ByteSize_ofList]
      exact hstart
    · rw [← hstop, ← String.utf8Len_toList, String.toList_append, String.toList_ofList]
  · intro before after c hsplit
    rw [← hchars] at hsplit
    have := Pieces.covered hbytes hsplit
    rwa [Nat.zero_add] at this
  · rw [← hchars]
    exact Pieces.texts 0 l.pieces l.last
  · intro t ht
    exact Pieces.shaped ht

theorem tiling_tokenize_mixed : "é>==int8 8int".utf8ByteSize < UInt32.size ∧
    Tiling "é>==int8 8int" (tokenize "é>==int8 8int").tokens.toList :=
  ⟨by decide, tiling_tokenize _ (by decide)⟩

end MiniLexer
