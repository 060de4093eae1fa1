import MiniLexer.Proofs.Lines

/-!
# Lines and columns address bytes

A position becomes a line and a column by a walk that takes the lines of the source one after
another. Wherever it stops, it has passed whole lines and what is left of the position lies in
the next line or at the end of the source (`exists_of_locate`). So the source falls into the
lines passed, the line it stopped at and the rest (`Location.IsPlace`), also when the position is
inside a character, or at the end of a source whose last line ends in a newline.

That a line and a column say which position they come from, and that a later position has no
earlier line, needs no cut: it follows the walk, which takes from the position what it adds to
the lines passed (`add_column_locate`, `line_locate_mono`).
-/

namespace MiniLexer.Source

/-- Lines one after another: each ends in a newline, of which it has no other, but the last one
may do without. -/
inductive Lined : List (List Char) → Prop where
  | nil : Lined []
  | last {line : List Char} : line ≠ [] → '\n' ∉ line → Lined [line]
  | cons {line : List Char} {ls : List (List Char)} :
      '\n' ∉ line → Lined ls → Lined ((line ++ ['\n']) :: ls)

/-- A line that the source is cut around, and the place of a position on it. -/
structure Location.IsPlace (l : Location) (source : String) (p : Nat) (before after : String) :
    Prop where
  source_eq : source = before ++ l.text ++ after
  /-- The line begins where the column is counted from. -/
  position : before.utf8ByteSize + l.column = p
  /-- That is at the beginning of the source or behind a newline. -/
  begins : before = "" ∨ ∃ rest, before = rest ++ "\n"
  /-- Lines are counted from 1. -/
  number : l.line = 1 + before.toList.count '\n'
  /-- The line has all up to the next newline, and that too, or it has all there is. -/
  ends : (∃ line, '\n' ∉ line.toList ∧ l.text = line ++ "\n") ∨
    '\n' ∉ l.text.toList ∧ after = ""
  column_le : l.column ≤ l.text.utf8ByteSize
  /-- The end of the line is a place on it only at the end of the source. -/
  column_eq_iff : l.column = l.text.utf8ByteSize ↔ p = source.utf8ByteSize

/-- What can be relied on when positions of a source are shown as lines and columns. -/
structure PlaceLaws (source : String) : Prop where
  none_iff : ∀ p, locate? source p = none ↔ source.utf8ByteSize < p
  isPlace : ∀ p l, locate? source p = some l → ∃ before after, l.IsPlace source p before after
  /-- A line and a column belong to one position. -/
  injective : ∀ p q l m, locate? source p = some l → locate? source q = some m →
    l.line = m.line → l.column = m.column → p = q
  /-- A later position is on the same line or on a later one. -/
  monotone : ∀ p q l m, locate? source p = some l → locate? source q = some m →
    p ≤ q → l.line ≤ m.line

/-! ## The lines of a text -/

theorem Lined.consLine {ls : List (List Char)} (h : Lined ls) (c : Char) :
    Lined (consLine c ls) := by
  by_cases hc : c = '\n'
  · -- a newline in front is a line of its own
    subst hc
    have hcons : Source.consLine '\n' ls = ([] ++ ['\n']) :: ls := by cases ls <;> rfl
    rw [hcons]
    exact .cons List.not_mem_nil h
  · have hmem : ∀ {line : List Char}, '\n' ∉ line → '\n' ∉ c :: line := by
      intro line hline
      simp [hline, Ne.symm hc]
    cases h with
    | nil => exact .last (List.cons_ne_nil c []) (hmem List.not_mem_nil)
    | last hne hline =>
        rw [Source.consLine, if_neg hc]
        exact .last (List.cons_ne_nil c _) (hmem hline)
    | cons hline hls =>
        rw [Source.consLine, if_neg hc, ← List.cons_append]
        exact .cons (hmem hline) hls

theorem lined_lines (cs : List Char) : Lined (lines cs) := by
  induction cs with
  | nil => exact .nil
  | cons c cs ih => exact ih.consLine c

theorem Lined.of_cons {line : List Char} {ls : List (List Char)} (h : Lined (line :: ls)) :
    line ≠ [] ∧ Lined ls ∧
      ((∃ l, '\n' ∉ l ∧ line = l ++ ['\n']) ∨ '\n' ∉ line ∧ ls = []) := by
  cases h with
  | last hne hline => exact ⟨hne, .nil, Or.inr ⟨hline, rfl⟩⟩
  | cons hline hls => exact ⟨by simp, hls, Or.inl ⟨_, hline, rfl⟩⟩

theorem Lined.of_append {front ls : List (List Char)} (h : Lined (front ++ ls)) : Lined ls := by
  induction front with
  | nil => exact h
  | cons line front ih => exact ih h.of_cons.2.1

/-- What stands before a line ends in a newline, and has one for each line. -/
theorem Lined.front {front ls : List (List Char)} (h : Lined (front ++ ls)) (hls : ls ≠ []) :
    front.flatten.count '\n' = front.length ∧
      (front.flatten = [] ∨ ∃ rest, front.flatten = rest ++ ['\n']) := by
  induction front with
  | nil => exact ⟨rfl, Or.inl rfl⟩
  | cons line front ih =>
      obtain ⟨-, hlined, hends⟩ := h.of_cons
      obtain ⟨l, hl, rfl⟩ := hends.resolve_right (by simp [hls])
      obtain ⟨hcount, hbegins⟩ := ih hlined
      rw [List.flatten_cons]
      constructor
      · rw [List.count_append, List.count_append, List.count_eq_zero_of_not_mem hl, hcount,
          List.count_singleton_self, List.length_cons]
        omega
      · right
        rcases hbegins with hnil | ⟨rest, hrest⟩
        · exact ⟨l, by rw [hnil, List.append_nil]⟩
        · exact ⟨l ++ ['\n'] ++ rest, by rw [hrest, List.append_assoc _ rest]⟩

/-! ## The walk over the lines -/

/-- **Where the walk stops, it has passed whole lines.** -/
theorem exists_of_locate (n p : Nat) {ls : List (List Char)} (hne : ls ≠ []) :
    ∃ front text back, ls = front ++ text :: back ∧
      locate n p (ls.map String.ofList) =
        ⟨n + front.length, String.ofList text, p - String.utf8Len front.flatten⟩ ∧
      String.utf8Len front.flatten ≤ p ∧
      (p < String.utf8Len front.flatten + String.utf8Len text ∨ back = []) := by
  induction ls generalizing n p with
  | nil => exact absurd rfl hne
  | cons line ls ih =>
      have hsize := String.utf8ByteSize_ofList line
      by_cases hlt : p < String.utf8Len line
      · refine ⟨[], line, ls, rfl, ?_, Nat.zero_le p, Or.inl (by simpa using hlt)⟩
        rw [List.map_cons, locate_of_lt (hsize ▸ hlt)]
        rfl
      · by_cases hnil : ls = []
        · -- the last line takes whatever is left of the position
          subst hnil
          exact ⟨[], line, [], rfl, rfl, Nat.zero_le p, Or.inr rfl⟩
        · obtain ⟨front, text, back, rfl, hlocate, hle, hstop⟩ :=
            ih (n + 1) (p - String.utf8Len line) hnil
          have hmap : (front ++ text :: back).map String.ofList ≠ [] := by simp
          refine ⟨line :: front, text, back, rfl, ?_, ?_, ?_⟩
          · rw [List.map_cons, locate_of_le (by omega) n hmap, hsize, hlocate, List.length_cons,
              List.flatten_cons, String.utf8Len_append, Nat.sub_sub, Nat.add_assoc,
              Nat.add_comm 1]
          · rw [List.flatten_cons, String.utf8Len_append]
            omega
          · refine hstop.imp_left fun hlt' => ?_
            rw [List.flatten_cons, String.utf8Len_append]
            omega

/-- The walk counts up. -/
theorem le_line_locate (n p : Nat) (ls : List String) : n ≤ (locate n p ls).line := by
  fun_induction locate n p ls with
  | case1 | case2 | case3 => exact Nat.le_refl _
  | case4 line p text next rest hle ih => omega

/-- **What the walk takes from the position, it has passed in lines.** -/
theorem add_column_locate (n p : Nat) (ls : List String) :
    (String.join (ls.take ((locate n p ls).line - n))).utf8ByteSize + (locate n p ls).column =
      p := by
  fun_induction locate n p ls with
  | case1 | case2 | case3 => simp
  | case4 n p text next rest hle ih =>
      have hline := le_line_locate (n + 1) (p - text.utf8ByteSize) (next :: rest)
      obtain ⟨k, hk⟩ := Nat.exists_eq_add_of_le hline
      have hsub : n + 1 + k - n = k + 1 := by omega
      rw [hk, Nat.add_sub_cancel_left] at ih
      rw [hk, hsub, List.take_succ_cons, String.join_cons, String.utf8ByteSize_append]
      omega

theorem line_locate_mono (n : Nat) {p q : Nat} (h : p ≤ q) (ls : List String) :
    (locate n p ls).line ≤ (locate n q ls).line := by
  fun_induction locate n p ls generalizing q with
  | case1 | case2 => exact Nat.le_refl _
  | case3 n p text next rest hlt => exact le_line_locate n q _
  | case4 n p text next rest hle ih =>
      -- the walk to the later position passes this line too
      have hpass : text.utf8ByteSize ≤ q := by omega
      rw [locate_of_le hpass n (List.cons_ne_nil next rest)]
      exact ih (Nat.sub_le_sub_right h _)

/-! ## The place of a position -/

section
variable {source : String} {p : Nat} {l : Location}

theorem locate?_eq_none_iff : locate? source p = none ↔ source.utf8ByteSize < p := by
  unfold locate?
  by_cases h : p ≤ source.utf8ByteSize
  · rw [if_pos h]
    exact iff_of_false (by simp) (Nat.not_lt.mpr h)
  · rw [if_neg h]
    exact iff_of_true rfl (Nat.lt_of_not_le h)

theorem of_locate?_eq_some (h : locate? source p = some l) : p ≤ source.utf8ByteSize ∧
    l = locate 1 p ((lines source.toList).map String.ofList) := by
  unfold locate? at h
  by_cases hle : p ≤ source.utf8ByteSize
  · rw [if_pos hle] at h
    exact ⟨hle, (Option.some.inj h).symm⟩
  · rw [if_neg hle] at h
    exact absurd h (by simp)

theorem exists_locate? (h : p ≤ source.utf8ByteSize) : ∃ l, locate? source p = some l := by
  rw [← Option.ne_none_iff_exists', Ne, locate?_eq_none_iff]
  exact Nat.not_lt.mpr h

theorem exists_lines_of_locate? (h : locate? source p = some l) (hne : source ≠ "") :
    ∃ front text back, lines source.toList = front ++ text :: back ∧
      l = ⟨1 + front.length, String.ofList text, p - String.utf8Len front.flatten⟩ ∧
      String.utf8Len front.flatten ≤ p ∧
      (p < String.utf8Len front.flatten + String.utf8Len text ∨ back = []) := by
  have hchars : source.toList ≠ [] := by simpa using hne
  obtain ⟨-, rfl⟩ := of_locate?_eq_some h
  exact exists_of_locate 1 p (lines_ne_nil hchars)

/-- Only the empty source has an empty line. -/
theorem text_ne_empty (h : locate? source p = some l) (hne : source ≠ "") : l.text ≠ "" := by
  obtain ⟨front, text, back, hls, rfl, -, -⟩ := exists_lines_of_locate? h hne
  have hlined := lined_lines source.toList
  rw [hls] at hlined
  simpa using hlined.of_append.of_cons.1

theorem source_eq_of_lines {front back : List (List Char)} {text : List Char}
    (hls : lines source.toList = front ++ text :: back) : source =
      String.ofList front.flatten ++ String.ofList text ++ String.ofList back.flatten := by
  rw [← String.ofList_append, ← String.ofList_append, List.append_assoc, ← List.flatten_cons,
    ← List.flatten_append, ← hls, flatten_lines, String.ofList_toList]

/-- A line around which the source is cut has the places from its beginning to its end, the end
itself only where the source ends. -/
theorem isPlace_of_lines {front back : List (List Char)} {text : List Char}
    (hls : lines source.toList = front ++ text :: back) (hp : p ≤ source.utf8ByteSize)
    (hfront : String.utf8Len front.flatten ≤ p)
    (hstop : p < String.utf8Len front.flatten + String.utf8Len text ∨ back = []) :
    Location.IsPlace ⟨1 + front.length, String.ofList text, p - String.utf8Len front.flatten⟩
      source p (String.ofList front.flatten) (String.ofList back.flatten) := by
  have hsource := source_eq_of_lines hls
  have hsize := congrArg String.utf8ByteSize hsource
  simp only [String.utf8ByteSize_append, String.utf8ByteSize_ofList] at hsize
  -- behind the last line there are no bytes
  have hlast : p < String.utf8Len front.flatten + String.utf8Len text ∨
      String.utf8Len back.flatten = 0 := by
    refine hstop.imp_right ?_
    rintro rfl
    rfl
  have hlined := lined_lines source.toList
  rw [hls] at hlined
  obtain ⟨hcount, hbegins⟩ := hlined.front (List.cons_ne_nil text back)
  obtain ⟨-, -, hends⟩ := hlined.of_append.of_cons
  constructor
  case source_eq => exact hsource
  case position =>
    rw [String.utf8ByteSize_ofList]
    exact Nat.add_sub_cancel' hfront
  case begins =>
    refine hbegins.imp ?_ ?_
    · intro hfirst
      rw [hfirst]
    · rintro ⟨rest, hrest⟩
      exact ⟨String.ofList rest, by rw [hrest, String.ofList_append]⟩
  case number => rw [String.toList_ofList, hcount]
  case ends =>
    refine hends.imp ?_ ?_
    · rintro ⟨line, hline, rfl⟩
      exact ⟨String.ofList line, by rwa [String.toList_ofList], String.ofList_append⟩
    · rintro ⟨htext, rfl⟩
      exact ⟨by rwa [String.toList_ofList], rfl⟩
  case column_le =>
    rw [String.utf8ByteSize_ofList]
    show p - String.utf8Len front.flatten ≤ String.utf8Len text
    omega
  case column_eq_iff =>
    rw [String.utf8ByteSize_ofList]
    show p - String.utf8Len front.flatten = String.utf8Len text ↔ p = source.utf8ByteSize
    omega

/-- **Every place is on a line that the source is cut around.** -/
theorem exists_isPlace (h : locate? source p = some l) :
    ∃ before after, l.IsPlace source p before after := by
  obtain ⟨hle, hl⟩ := of_locate?_eq_some h
  by_cases hnil : source = ""
  · -- the source of no lines has one place all the same
    subst hnil hl
    obtain rfl := Nat.le_zero.mp hle
    exact ⟨"", "", rfl, rfl, Or.inl rfl, rfl, Or.inr ⟨List.not_mem_nil, rfl⟩, Nat.le_refl 0,
      Iff.rfl⟩
  · obtain ⟨front, text, back, hls, rfl, hfront, hstop⟩ := exists_lines_of_locate? h hnil
    exact ⟨_, _, isPlace_of_lines hls hle hfront hstop⟩

end

/-! ## At the top -/

/--
**Every position up to the end of the source has a line and a column, and they have that
position.**

A position may be any number of bytes, also one that ends inside a character.
-/
theorem placeLaws_locate (source : String) : PlaceLaws source where
  none_iff _ := locate?_eq_none_iff
  isPlace _ _ := exists_isPlace
  injective := by
    intro p q l m hp hq hline hcolumn
    obtain ⟨-, rfl⟩ := of_locate?_eq_some hp
    obtain ⟨-, rfl⟩ := of_locate?_eq_some hq
    have hp := add_column_locate 1 p ((lines source.toList).map String.ofList)
    have hq := add_column_locate 1 q ((lines source.toList).map String.ofList)
    rw [hline, hcolumn] at hp
    exact hp.symm.trans hq
  monotone := by
    intro p q l m hp hq hle
    obtain ⟨-, rfl⟩ := of_locate?_eq_some hp
    obtain ⟨-, rfl⟩ := of_locate?_eq_some hq
    exact line_locate_mono 1 hle _

end MiniLexer.Source
