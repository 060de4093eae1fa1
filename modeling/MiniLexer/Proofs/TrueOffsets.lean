import MiniLexer.Proofs.Tiling

/-!
# Spans in a source of any size

A span holds two 32-bit words, and the offset at which a lexeme begins and the one at which it
ends are cut down to them one by one. So a span always gives its token's true place modulo 2³²,
and what may go wrong is its length. It does where a multiple of 2³² lies behind the beginning of
the lexeme and not behind its end (`mod_add_eq_iff`): a token that ends just there has an end of 0
already.

The true place is not read off the span, nor off a scan. In front of it are the lexemes of the
earlier tokens, and besides them characters of no lexeme (`Token.BeginsAt`). Only one place is like
that, since a lexeme begins with a character that the text in front of a later one would hold once
more (`BeginsAt.unique`).
-/

namespace MiniLexer

open Lexeme (Spells isTokenChar lexemes)

/-- The text of `t`, a token that has the `earlier` ones in front of it, begins at byte `k`: what
stands there in front of it holds their texts and beyond these no character of a lexeme. -/
def Token.BeginsAt (t : Token) (source : String) (earlier : List Token) (k : Nat) : Prop :=
  ∃ before after : String, source = before ++ t.text ++ after ∧ before.utf8ByteSize = k ∧
    before.toList.filter isTokenChar = earlier.flatMap fun u => u.text.toList

/-! ## Lengths modulo a word -/

/-- Reducing both ends of an interval keeps its length if no multiple lies in it, the first of its
ends excepted. -/
theorem mod_add_eq_iff {size : Nat} (hsize : 0 < size) (k n : Nat) :
    k % size + n = (k + n) % size ↔ ∀ m, ¬ (k < m * size ∧ m * size ≤ k + n) := by
  have hk := Nat.div_add_mod' k size
  constructor
  · intro heq m hm
    -- the next multiple is not behind this one, so the length is too much for a remainder
    have hdiv : k / size < m := (Nat.div_lt_iff_lt_mul hsize).mpr hm.1
    have hnext : (k / size + 1) * size ≤ m * size := Nat.mul_le_mul_right size hdiv
    have hrem := Nat.mod_lt (k + n) hsize
    rw [Nat.succ_mul] at hnext
    omega
  · intro hnone
    have hnext := hnone (k / size + 1)
    have hrem := Nat.mod_lt k hsize
    rw [Nat.succ_mul] at hnext
    have hlt : k % size + n < size := by omega
    rw [← Nat.mod_add_mod, Nat.mod_eq_of_lt hlt]

/-! ## The true place -/

/-- A text with a lexeme behind it is no shorter than one that goes on to hold no more lexemes. -/
theorem eq_nil_of_filter_eq {pre mid w post post' : List Char} {c : Char} (hc : isTokenChar c)
    (h : c :: w ++ post = mid ++ post')
    (hfilter : (pre ++ mid).filter isTokenChar = pre.filter isTokenChar) : mid = [] := by
  cases mid with
  | nil => rfl
  | cons d mid =>
      obtain rfl : c = d := (List.cons.inj h).1
      rw [List.filter_append, List.filter_cons_of_pos hc] at hfilter
      have := congrArg List.length hfilter
      simp at this

/-- **A token has one true place.** -/
theorem Token.BeginsAt.unique {t : Token} {source : String} {earlier : List Token} {j k : Nat}
    (ht : Spells t.kind t.text.toList) (hj : t.BeginsAt source earlier j)
    (hk : t.BeginsAt source earlier k) : j = k := by
  obtain ⟨before, after, hsource, rfl, hfilter⟩ := hj
  obtain ⟨before', after', hsource', rfl, hfilter'⟩ := hk
  obtain ⟨c, w, hw⟩ := List.exists_cons_of_ne_nil ht.ne_nil
  have hc : isTokenChar c := ht.isTokenChar c (by simp [hw])
  rw [hsource, ← String.toList_inj] at hsource'
  simp only [String.toList_append, List.append_assoc, hw] at hsource'
  have hsame : before.toList = before'.toList := by
    rcases List.append_eq_append_iff.mp hsource' with ⟨mid, hmid, htail⟩ | ⟨mid, hmid, htail⟩
    · rw [hmid, ← hfilter] at hfilter'
      rw [hmid, eq_nil_of_filter_eq hc htail hfilter', List.append_nil]
    · rw [hmid, ← hfilter'] at hfilter
      rw [hmid, eq_nil_of_filter_eq hc htail hfilter, List.append_nil]
  rw [String.toList_inj.mp hsame]

/-- Every token has a true place, and its span is the one of that offset. -/
theorem exists_beginsAt {source : String} {earlier later : List Token} {t : Token}
    (h : (tokenize source).tokens.toList = earlier ++ t :: later) :
    ∃ k, t.BeginsAt source earlier k ∧ t.span = .ofText t.text k ∧
      Spells t.kind t.text.toList ∧ k + t.text.utf8ByteSize ≤ source.utf8ByteSize := by
  obtain ⟨l, -, hchars, htokens⟩ := Layout.exists_of_source source
  rw [htokens] at h
  obtain ⟨ps, p, qs, hl, rfl, rfl⟩ := Pieces.exists_of_tokens_eq h
  rw [Nat.zero_add]
  have hsource : source = String.ofList (Pieces.chars ps ++ p.gap.chars) ++
      String.ofList p.lexeme.chars ++ String.ofList (Pieces.chars qs ++ l.last.chars) := by
    rw [← String.toList_inj, hchars, Layout.chars, hl]
    simp
  have hbefore : (String.ofList (Pieces.chars ps ++ p.gap.chars)).utf8ByteSize =
      String.utf8Len (Pieces.chars ps) + String.utf8Len p.gap.chars := by
    rw [String.utf8ByteSize_ofList, String.utf8Len_append]
  have hbytes := congrArg String.utf8ByteSize hsource
  rw [String.utf8ByteSize_append, String.utf8ByteSize_append, hbefore] at hbytes
  refine ⟨_, ⟨_, _, hsource, hbefore, ?_⟩, rfl, ?_, ?_⟩
  · rw [String.toList_ofList]
    exact (Pieces.texts 0 ps p.gap).symm
  · rw [Piece.toList_text_token]
    exact p.lexeme.spells
  · show String.utf8Len _ + String.utf8Len _ + (String.ofList p.lexeme.chars).utf8ByteSize ≤ _
    omega

/-! ## At the top -/

/--
**Spans are exact but where a token reaches a multiple of 2³².**

A token has just one true place, and the ends of its span are the true ones modulo 2³². They lie
as far apart as the token has bytes exactly if no multiple of 2³² comes after its beginning and up
to its end. None does in a source that is shorter, and there the ends are the true ones.
-/
theorem span_tokenize {source : String} {earlier later : List Token} {t : Token}
    (h : (tokenize source).tokens.toList = earlier ++ t :: later) :
    ∃ k, t.BeginsAt source earlier k ∧ (∀ j, t.BeginsAt source earlier j → j = k) ∧
      t.span.start.toNat = k % UInt32.size ∧
      t.span.stop.toNat = (k + t.text.utf8ByteSize) % UInt32.size ∧
      (t.span.start.toNat + t.text.utf8ByteSize = t.span.stop.toNat ↔
        ∀ m, ¬ (k < m * UInt32.size ∧ m * UInt32.size ≤ k + t.text.utf8ByteSize)) ∧
      (source.utf8ByteSize < UInt32.size →
        t.span.start.toNat = k ∧ t.span.stop.toNat = k + t.text.utf8ByteSize) := by
  obtain ⟨k, hbegins, hspan, hspells, hle⟩ := exists_beginsAt h
  have hstart : t.span.start.toNat = k % UInt32.size := by
    rw [hspan, Span.toNat_start_ofText]
  have hstop : t.span.stop.toNat = (k + t.text.utf8ByteSize) % UInt32.size := by
    rw [hspan, Span.toNat_stop_ofText]
  refine ⟨k, hbegins, fun j hj => hj.unique hspells hbegins, hstart, hstop, ?_, ?_⟩
  · rw [hstart, hstop]
    exact mod_add_eq_iff (by decide) k _
  · intro hshort
    rw [hstart, hstop, Nat.mod_eq_of_lt (by omega), Nat.mod_eq_of_lt (by omega)]
    exact ⟨rfl, rfl⟩

/-- Some blanks and then a word. -/
def indented (n : Nat) : String := String.ofList (List.replicate n ' ' ++ ['a', 'b'])

/-- The word is the only token, and it begins behind the blanks. -/
theorem tokens_indented (n : Nat) :
    (tokenize (indented n)).tokens.toList = [] ++ Token.ofText .identifier "ab" n :: [] ∧
      (Token.ofText .identifier "ab" n).BeginsAt (indented n) [] n := by
  have hblank : ∀ c ∈ List.replicate n ' ', isTokenChar c = false := by
    intro c hc
    rw [(List.mem_replicate.mp hc).2]
    rfl
  have hword : Spells .identifier ['a', 'b'] := by decide
  constructor
  · rw [indented, tokens_tokenize_ofList, Lexeme.lexemes_skip_all hblank,
      Text.utf8Len_replicate rfl, Nat.zero_add, ← List.append_nil ['a', 'b'],
      Lexeme.lexemes_append hword (Lexeme.stops_nil _), Lexeme.lexemes_nil]
    rfl
  · refine ⟨String.ofList (List.replicate n ' '), "", ?_, ?_, ?_⟩
    · rw [indented, String.ofList_append, String.append_empty]
      rfl
    · rw [String.utf8ByteSize_ofList, Text.utf8Len_replicate rfl]
    · rw [String.toList_ofList, List.flatMap_nil, List.filter_eq_nil_iff]
      intro c hc
      simp [hblank c hc]

/-- The span of a word that ends at byte 2³² ends at 0. -/
theorem span_tokenize_boundary :
    let t := Token.ofText .identifier "ab" (UInt32.size - 2)
    (tokenize (indented (UInt32.size - 2))).tokens.toList = [] ++ t :: [] ∧
      t.BeginsAt (indented (UInt32.size - 2)) [] (UInt32.size - 2) ∧
      t.span.start.toNat = UInt32.size - 2 ∧ t.span.stop.toNat = 0 := by
  intro t
  obtain ⟨h, hbegins⟩ := tokens_indented (UInt32.size - 2)
  obtain ⟨k, -, hunique, hstart, hstop, -, -⟩ := span_tokenize h
  rw [← hunique _ hbegins] at hstart hstop
  exact ⟨h, hbegins, hstart, hstop⟩

end MiniLexer
