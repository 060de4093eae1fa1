import MiniLexer.TokenStream.Zipper

/-!
# A stream is its zipper

Whatever a stream is asked, its zipper gives the same answer from the two halves alone, and the
stream goes where the zipper goes. The cursor is what could break this. A stream whose cursor
is beyond the end has the zipper of one at the end, but it steps back to another place; so the
bound on the cursor belongs to what is kept (`TokenStream.Mirrors`), and each operation has to
keep it.

A step keeps it (`Mirrors.answer`), and so does a run (`Mirrors.run`). What a parser relies on
between two questions, that stepping back undoes reading, that a jump lands where it was
sent, that nothing is left out by reading to the end, is then read off the zipper
(`TokenStream.CursorLaws`).
-/

namespace MiniLexer.TokenStream

/-- The cursor is not beyond the end, and the zipper is the tokens cut there. -/
structure Mirrors (s : TokenStream) (z : Zipper) : Prop where
  inBounds : s.position ≤ s.size
  toZipper_eq : s.toZipper = z

/-- What can be relied on of a stream of the tokens `ts` when `z` is its zipper. -/
structure CursorLaws (ts : Array Token) (s : TokenStream) (z : Zipper) : Prop where
  /-- The tokens are those that the stream began with. -/
  tokens : s.tokens = ts
  inBounds : s.position ≤ ts.size
  /-- The zipper is these tokens, cut at the cursor. -/
  view : z = ⟨(ts.toList.take s.position).reverse, ts.toList.drop s.position⟩
  /-- Whichever way one looks ahead, one sees the first of the tokens ahead. -/
  head : s.peek = z.ahead.head? ∧ s.read.1 = z.ahead.head? ∧
    s.next?.map Prod.fst = z.ahead.head?
  /-- Reading at the end finds nothing and stays there, so that one step back from it leads to
  the last token. -/
  read_end : z.ahead = [] → s.read = (none, s) ∧ s.read.2.unread.peek = ts.back?
  /-- Stepping back undoes the reading of a token. -/
  unread_read : ∀ t, s.read.1 = some t → s.read.2.unread = s
  unread_next : ∀ t rest, s.next? = some (t, rest) → rest.unread = s
  unread_start : s.position = 0 → s.unread = s
  /-- A jump to a token cuts the tokens before it. -/
  jump : ∀ n < ts.size, (s.setPosition n).toZipper = .cut ts.toList n
  /-- Other jumps are ignored, the one to the end among them. -/
  jump_ignored : ∀ n, ts.size ≤ n → s.setPosition n = s
  /-- Reading to the end gives every token ahead, once and in order. -/
  drain : s.rest = (ts.extract s.position ts.size, { tokens := ts, position := ts.size })

section
variable {s rest : TokenStream} {t : Token}

theorem ahead_toZipper (s : TokenStream) :
    s.toZipper.ahead = s.tokens.toList.drop s.position := rfl

@[simp] theorem tokens_toZipper (s : TokenStream) : s.toZipper.tokens = s.tokens.toList :=
  Zipper.tokens_cut _ _

/-! ## Looking ahead -/

theorem peek_eq_head? (s : TokenStream) : s.peek = s.toZipper.ahead.head? := by
  rw [ahead_toZipper, List.head?_drop, Array.getElem?_toList]
  rfl

theorem endOffset_eq (s : TokenStream) :
    s.endOffset = (s.tokens.back?.map (·.span.stop)).getD 0 := by
  unfold endOffset
  cases s.tokens.back? with
  | none => rfl
  | some t => rfl

theorem next?_eq_none_iff : s.next? = none ↔ s.toZipper.ahead = [] := by
  rw [next?, Option.map_eq_none_iff, peek_eq_head?, List.head?_eq_none_iff]

/-- A token that is read is the first one ahead, and the others stay ahead. -/
theorem ahead_of_next? (h : s.next? = some (t, rest)) :
    s.toZipper.ahead = t :: rest.toZipper.ahead := by
  have hlt := position_lt_of_next? h
  obtain rfl := eq_of_next? h
  simp only [next?, peek, Option.map_eq_some_iff, Prod.mk.injEq, and_true] at h
  obtain ⟨u, hu, rfl⟩ := h
  rw [Array.getElem?_eq_getElem hlt, Option.some.injEq] at hu
  rw [ahead_toZipper, List.drop_eq_getElem_cons hlt, Array.getElem_toList, hu]
  rfl

theorem toZipper_of_next? (h : s.next? = some (t, rest)) :
    rest.toZipper = s.toZipper.forward := by
  rw [eq_of_next? h]
  exact (Zipper.forward_cut _ _).symm

end

/-! ## One question -/

namespace Mirrors

variable {s rest : TokenStream} {z : Zipper} {t : Token}

theorem peek (h : s.Mirrors z) : s.peek = z.ahead.head? := by
  rw [peek_eq_head?, h.toZipper_eq]

theorem position (h : s.Mirrors z) : s.position = z.position := by
  rw [← h.toZipper_eq]
  exact (Zipper.position_cut h.inBounds).symm

/-- The zipper says whether there is a token to read, and where reading it leads. -/
theorem next?_cases (h : s.Mirrors z) :
    (s.next? = none ∧ z.ahead = []) ∨ ∃ t rest, s.next? = some (t, rest) ∧
      z.ahead = t :: rest.toZipper.ahead ∧ rest.Mirrors z.forward := by
  obtain ⟨hle, rfl⟩ := h
  cases hnext : s.next? with
  | none => exact Or.inl ⟨rfl, next?_eq_none_iff.mp hnext⟩
  | some found =>
      obtain ⟨t, rest⟩ := found
      refine Or.inr ⟨t, rest, rfl, ahead_of_next? hnext, ?_, toZipper_of_next? hnext⟩
      have hlt := position_lt_of_next? hnext
      rw [eq_of_next? hnext]
      exact hlt

theorem read (h : s.Mirrors z) : s.read.1 = z.ahead.head? ∧ s.read.2.Mirrors z.forward := by
  unfold TokenStream.read
  rcases h.next?_cases with ⟨hnext, hnil⟩ | ⟨t, rest, hnext, hcons, hrest⟩
  · rw [hnext, Zipper.forward_of_nil hnil, hnil]
    exact ⟨rfl, h⟩
  · rw [hnext, hcons]
    exact ⟨rfl, hrest⟩

theorem unread (h : s.Mirrors z) : s.unread.Mirrors z.back := by
  obtain ⟨hle, rfl⟩ := h
  constructor
  · exact Nat.le_trans (Nat.sub_le _ _) hle
  · exact (Zipper.back_cut hle).symm

theorem setPosition (h : s.Mirrors z) (n : Nat) : (s.setPosition n).Mirrors (z.jump n) := by
  obtain ⟨hle, rfl⟩ := h
  rw [toZipper, Zipper.jump_cut, Array.length_toList]
  unfold TokenStream.setPosition size
  by_cases hn : n < s.tokens.size
  · rw [if_pos hn, if_pos hn]
    exact ⟨Nat.le_of_lt hn, rfl⟩
  · rw [if_neg hn, if_neg hn]
    exact ⟨hle, rfl⟩

theorem endOffset (h : s.Mirrors z) : s.endOffset = z.endOffset := by
  rw [endOffset_eq, Zipper.endOffset, ← h.toZipper_eq, tokens_toZipper, Array.getLast?_toList]

/-- An expectation that is met reads the token, one that fails moves neither. -/
theorem expect (h : s.Mirrors z) (kind : TokenKind) :
    (s.expect kind).1 = (z.expect kind).1 ∧ (s.expect kind).2.Mirrors (z.expect kind).2 := by
  rcases h.next?_cases with ⟨hnext, hnil⟩ | ⟨t, rest, hnext, hcons, hrest⟩
  · have hpeek := h.peek
    rw [hnil] at hpeek
    simp only [TokenStream.expect, Zipper.expect, hpeek, hnil, List.head?_nil, h.endOffset]
    exact ⟨trivial, h⟩
  · have hpeek := h.peek
    rw [hcons] at hpeek
    simp only [TokenStream.expect, Zipper.expect, hpeek, hcons, List.head?_cons]
    rw [eq_of_next? hnext] at hrest
    split
    · exact ⟨rfl, hrest⟩
    · exact ⟨rfl, h⟩

theorem takeInto (h : s.Mirrors z) (found : Array Token) (n : Nat) :
    (s.takeInto found n).1.toList = found.toList ++ z.ahead.take n ∧
      (s.takeInto found n).2.Mirrors (z.advance n) := by
  induction n generalizing found s z with
  | zero => exact ⟨by simp [TokenStream.takeInto], h⟩
  | succ n ih =>
      rw [TokenStream.takeInto, Zipper.advance_succ]
      rcases h.next?_cases with ⟨hnext, hnil⟩ | ⟨t, rest, hnext, hcons, hrest⟩
      · -- at the end the stream stops counting, and the zipper moves nothing more
        rw [hnext, Zipper.forward_of_nil hnil, Zipper.advance_of_nil hnil, hnil]
        exact ⟨by simp, h⟩
      · obtain ⟨hfound, hmirrors⟩ := ih hrest (found.push t)
        rw [hnext]
        refine ⟨?_, hmirrors⟩
        rw [hfound, hcons]
        simp [← hrest.toZipper_eq]

theorem take (h : s.Mirrors z) (n : Nat) :
    (s.take n).1.toList = z.ahead.take n ∧ (s.take n).2.Mirrors (z.advance n) := by
  obtain ⟨hfound, hmirrors⟩ := h.takeInto #[] n
  exact ⟨hfound.trans (List.nil_append _), hmirrors⟩

end Mirrors

/-- To read to the end is to read as many tokens as are ahead. -/
theorem restInto_eq_takeInto (found : Array Token) (s : TokenStream) :
    s.restInto found = s.takeInto found s.toZipper.ahead.length := by
  fun_induction restInto found s with
  | case1 found s t rest hnext ih =>
      rw [ih, ahead_of_next? hnext, List.length_cons, takeInto, hnext]
  | case2 found s hnext =>
      rw [next?_eq_none_iff.mp hnext]
      rfl

namespace Mirrors

variable {s : TokenStream} {z : Zipper}

theorem rest (h : s.Mirrors z) :
    s.rest.1.toList = z.ahead ∧ s.rest.2.Mirrors (z.advance z.ahead.length) := by
  have hrest : s.rest = s.take z.ahead.length := by
    rw [← h.toZipper_eq]
    exact restInto_eq_takeInto #[] s
  rw [hrest]
  have htake := h.take z.ahead.length
  rwa [List.take_length] at htake

/-- **A stream and its zipper answer every question alike, and stay together.** -/
theorem answer (h : s.Mirrors z) (op : Op) :
    (s.answer op).1 = (z.answer op).1 ∧ (s.answer op).2.Mirrors (z.answer op).2 := by
  have htokens : s.tokens.toList = z.tokens := by
    rw [← h.toZipper_eq, tokens_toZipper]
  cases op with
  | read =>
      obtain ⟨hfound, hmirrors⟩ := h.read
      exact ⟨congrArg Answer.token hfound, hmirrors⟩
  | next =>
      rw [answer_next]
      obtain ⟨hfound, hmirrors⟩ := h.read
      exact ⟨congrArg Answer.token hfound, hmirrors⟩
  | peek => exact ⟨congrArg Answer.token h.peek, h⟩
  | unread => exact ⟨rfl, h.unread⟩
  | position => exact ⟨congrArg Answer.number h.position, h⟩
  | size =>
      refine ⟨congrArg Answer.number ?_, h⟩
      rw [← htokens, Array.length_toList]
      rfl
  | isEmpty =>
      refine ⟨congrArg (fun b => Answer.flag (some b)) ?_, h⟩
      rw [← htokens, Array.isEmpty_toList]
      rfl
  | tokens => exact ⟨congrArg Answer.tokens htokens, h⟩
  | setPosition n => exact ⟨rfl, h.setPosition n⟩
  | take n =>
      obtain ⟨hfound, hmirrors⟩ := h.take n
      exact ⟨congrArg Answer.tokens hfound, hmirrors⟩
  | rest =>
      obtain ⟨hfound, hmirrors⟩ := h.rest
      exact ⟨congrArg Answer.tokens hfound, hmirrors⟩
  | peekIsOneOf kinds =>
      refine ⟨congrArg Answer.flag ?_, h⟩
      rw [peekIsOneOf, h.peek]
  | expect kind =>
      obtain ⟨hfound, hmirrors⟩ := h.expect kind
      exact ⟨congrArg Answer.ofExcept hfound, hmirrors⟩

/-! ## Many questions -/

/-- **However long it is used, a stream answers as its zipper does.** -/
theorem run (h : s.Mirrors z) (ops : List Op) :
    (s.run ops).1 = (z.run ops).1 ∧ (s.run ops).2.Mirrors (z.run ops).2 := by
  induction ops generalizing s z with
  | nil => exact ⟨rfl, h⟩
  | cons op ops ih =>
      obtain ⟨hanswer, hnext⟩ := h.answer op
      obtain ⟨hanswers, hlast⟩ := ih hnext
      refine ⟨?_, hlast⟩
      simp only [TokenStream.run, Zipper.run, hanswer, hanswers, hnext.position]

/-- After no question is the cursor beyond the end. -/
theorem position_le_of_mem_run (h : s.Mirrors z) {ops : List Op} {a : Answer × Nat}
    (ha : a ∈ (s.run ops).1) : a.2 ≤ s.tokens.size := by
  induction ops generalizing s z with
  | nil => simp [TokenStream.run] at ha
  | cons op ops ih =>
      have hnext := (h.answer op).2
      have hsize : (s.answer op).2.tokens.size = s.tokens.size := by rw [s.tokens_answer op]
      rw [← hsize]
      rcases List.mem_cons.mp ha with ha | ha
      · rw [ha]
        exact hnext.inBounds
      · exact ih hnext ha

end Mirrors

theorem mirrors_ofTokens (ts : Array Token) : (ofTokens ts).Mirrors ⟨[], ts.toList⟩ :=
  ⟨Nat.zero_le _, rfl⟩

/-! ## What a parser relies on -/

section
variable {s rest : TokenStream} {t : Token}

theorem unread_of_next? (h : s.next? = some (t, rest)) : rest.unread = s := by
  rw [eq_of_next? h]
  rfl

theorem read_of_next? (h : s.next? = some (t, rest)) : s.read = (some t, rest) := by
  rw [read, h]

theorem read_of_end (h : s.toZipper.ahead = []) : s.read = (none, s) := by
  rw [read, next?_eq_none_iff.mpr h]

theorem peek_unread_of_end (hle : s.position ≤ s.size) (h : s.toZipper.ahead = []) :
    s.unread.peek = s.tokens.back? := by
  have hlen := List.drop_eq_nil_iff.mp h
  rw [Array.length_toList] at hlen
  have hpos : s.position = s.tokens.size := Nat.le_antisymm hle hlen
  rw [Array.back?_eq_getElem?, ← hpos]
  rfl

theorem map_fst_next? (s : TokenStream) : s.next?.map Prod.fst = s.peek := by
  rw [next?, Option.map_map]
  exact Option.map_id'

theorem rest_eq (hle : s.position ≤ s.size) :
    s.rest = (s.tokens.extract s.position s.tokens.size, { s with position := s.tokens.size }) := by
  obtain ⟨hfound, hmirrors⟩ := Mirrors.rest ⟨hle, rfl⟩
  have hposition : s.rest.2.position = s.tokens.size := by
    have hsplit := s.tokens_toZipper
    rw [hmirrors.position, ← Array.length_toList, ← hsplit]
    simp [Zipper.position, Zipper.advance, Zipper.tokens, Nat.add_comm]
  have hlast : s.rest.2 = { s with position := s.tokens.size } := by
    rw [← hposition, ← tokens_rest s]
  refine Prod.ext (Array.toList_inj.mp ?_) hlast
  rw [hfound, ahead_toZipper, Array.toList_extract, List.extract_eq_take_drop,
    List.take_of_length_le (by simp)]

end

theorem CursorLaws.of_mirrors {s : TokenStream} {z : Zipper} (h : s.Mirrors z) :
    CursorLaws s.tokens s z where
  tokens := rfl
  inBounds := h.inBounds
  view := h.toZipper_eq.symm
  head := ⟨h.peek, h.read.1, (map_fst_next? s).trans h.peek⟩
  read_end := by
    obtain ⟨hle, rfl⟩ := h
    intro hnil
    rw [read_of_end hnil]
    exact ⟨rfl, peek_unread_of_end hle hnil⟩
  unread_read := by
    intro t ht
    rcases h.next?_cases with ⟨hnext, hnil⟩ | ⟨u, rest, hnext, -, -⟩
    · rw [h.read.1, hnil] at ht
      simp at ht
    · rw [read_of_next? hnext]
      exact unread_of_next? hnext
  unread_next := fun t rest => unread_of_next?
  unread_start := by
    intro hzero
    rw [unread, hzero, Nat.zero_sub, ← hzero]
  jump := by
    intro n hn
    rw [setPosition, size, if_pos hn]
    rfl
  jump_ignored := by
    intro n hn
    rw [setPosition, size, if_neg (Nat.not_lt.mpr hn)]
  drain := rest_eq h.inBounds

/--
**A stream behaves step by step as a zipper does, whatever it is asked and for how long.**

The answers and the positions beside them are those of the zipper that begins before the first
token, and so is the place where both end up, so whatever is asked next is answered alike. The
default stream is the one of no tokens.
-/
theorem cursorLaws_run (ts : Array Token) (ops : List Op) :
    ((ofTokens ts).run ops).1 = ((Zipper.mk [] ts.toList).run ops).1 ∧
      (∀ a ∈ ((ofTokens ts).run ops).1, a.2 ≤ ts.size) ∧
      CursorLaws ts ((ofTokens ts).run ops).2 ((Zipper.mk [] ts.toList).run ops).2 ∧
      ({} : TokenStream) = ofTokens #[] := by
  obtain ⟨hanswers, hlast⟩ := (mirrors_ofTokens ts).run ops
  have htokens : ((ofTokens ts).run ops).2.tokens = ts := tokens_run _ _
  have hlaws := CursorLaws.of_mirrors hlast
  rw [htokens] at hlaws
  exact ⟨hanswers, fun a => (mirrors_ofTokens ts).position_le_of_mem_run, hlaws, rfl⟩

end MiniLexer.TokenStream
