import MiniLexer.Source.Location
import MiniLexer.Text.Bytes
import Mathlib.Data.List.Induction

/-!
# Finding a line

A source that is cut in front of a place falls into whole lines, the part of the place's own line
before it, and the rest. These are the number of the line, the column, and the line itself
(`locate?_of_split`): only the very end of a source that ends in a newline is not located
this way, for it belongs to the line before.

`locate` walks over whole lines, so the proof is an induction over those (`WholeLines`) and never
opens one.
-/

namespace MiniLexer.Source

/-- A text that is some lines, each with the newline that ends it. -/
inductive WholeLines : List Char → Prop where
  | nil : WholeLines []
  | cons {line later : List Char} :
      '\n' ∉ line → WholeLines later → WholeLines (line ++ '\n' :: later)

/-- What a text has of its first line, the newline included. -/
def restOfLine : List Char → List Char
  | [] => []
  | c :: cs => if c = '\n' then [c] else c :: restOfLine cs

/-! ## Whole lines -/

theorem restOfLine_append {as : List Char} (h : '\n' ∉ as) (cs : List Char) :
    restOfLine (as ++ cs) = as ++ restOfLine cs := by
  induction as with
  | nil => rfl
  | cons a as ih =>
      simp only [List.mem_cons, not_or] at h
      rw [List.cons_append, restOfLine, if_neg (Ne.symm h.1), ih h.2, List.cons_append]

theorem restOfLine_ne_nil {cs : List Char} (h : cs ≠ []) : restOfLine cs ≠ [] := by
  obtain ⟨c, cs, rfl⟩ := List.exists_cons_of_ne_nil h
  rw [restOfLine]
  split <;> simp

/-- Only the last character of a line can be a newline. -/
theorem exists_restOfLine (cs : List Char) :
    ∃ line, '\n' ∉ line ∧ (restOfLine cs = line ∨ restOfLine cs = line ++ ['\n']) := by
  induction cs with
  | nil => exact ⟨[], by simp, Or.inl rfl⟩
  | cons c cs ih =>
      by_cases hc : c = '\n'
      · exact ⟨[], by simp, Or.inr (by simp [restOfLine, hc])⟩
      · obtain ⟨line, hline, heq⟩ := ih
        refine ⟨c :: line, by simp [hline, Ne.symm hc], ?_⟩
        rw [restOfLine, if_neg hc]
        rcases heq with heq | heq
        · exact Or.inl (by rw [heq])
        · exact Or.inr (by rw [heq, List.cons_append])

theorem lines_eq_cons {cs : List Char} (h : cs ≠ []) : ∃ ls, lines cs = restOfLine cs :: ls := by
  induction cs with
  | nil => exact absurd rfl h
  | cons c cs ih =>
      show ∃ ls, consLine c (lines cs) = restOfLine (c :: cs) :: ls
      rw [restOfLine]
      by_cases hcs : cs = []
      · subst hcs
        exact ⟨[], by simp [lines, consLine, restOfLine]⟩
      · obtain ⟨ls, hls⟩ := ih hcs
        rw [hls, consLine]
        split
        · exact ⟨_, rfl⟩
        · exact ⟨_, rfl⟩

theorem lines_ne_nil {cs : List Char} (h : cs ≠ []) : lines cs ≠ [] := by
  obtain ⟨ls, hls⟩ := lines_eq_cons h
  simp [hls]

/-- A text without a newline is one line. -/
theorem lines_of_not_mem {cs : List Char} (h : '\n' ∉ cs) (hne : cs ≠ []) : lines cs = [cs] := by
  induction cs with
  | nil => exact absurd rfl hne
  | cons c cs ih =>
      simp only [List.mem_cons, not_or] at h
      show consLine c (lines cs) = [c :: cs]
      by_cases hcs : cs = []
      · subst hcs
        rfl
      · rw [ih h.2 hcs, consLine, if_neg (Ne.symm h.1)]

/-- A newline ends the first line. -/
theorem lines_append_newline {as : List Char} (h : '\n' ∉ as) (cs : List Char) :
    lines (as ++ '\n' :: cs) = (as ++ ['\n']) :: lines cs := by
  induction as with
  | nil =>
      show consLine '\n' (lines cs) = ['\n'] :: lines cs
      cases lines cs <;> rfl
  | cons a as ih =>
      simp only [List.mem_cons, not_or] at h
      show consLine a (lines (as ++ '\n' :: cs)) = (a :: as ++ ['\n']) :: lines cs
      rw [ih h.2, consLine, if_neg (Ne.symm h.1), List.cons_append]

/-! ## Whole lines before a place -/

theorem WholeLines.append {as bs : List Char} (ha : WholeLines as) (hb : WholeLines bs) :
    WholeLines (as ++ bs) := by
  induction ha with
  | nil => exact hb
  | cons hline _ ih =>
      rw [List.append_assoc]
      exact .cons hline ih

/-- Every text is some whole lines and the beginning of another. -/
theorem exists_wholeLines_append (cs : List Char) :
    ∃ before line, cs = before ++ line ∧ WholeLines before ∧ '\n' ∉ line := by
  induction cs using List.reverseRecOn with
  | nil => exact ⟨[], [], rfl, .nil, by simp⟩
  | append_singleton cs c ih =>
      obtain ⟨before, line, rfl, hbefore, hline⟩ := ih
      by_cases hc : c = '\n'
      · subst hc
        exact ⟨before ++ (line ++ ['\n']), [], by simp, hbefore.append (.cons hline .nil), by simp⟩
      · exact ⟨before, line ++ [c], by simp, hbefore, by simp [hline, Ne.symm hc]⟩

/-! ## The walk over the lines -/

theorem locate_of_lt {p : Nat} {text : String} (h : p < text.utf8ByteSize) (n : Nat)
    (ls : List String) : locate n p (text :: ls) = ⟨n, text, p⟩ := by
  cases ls with
  | nil => rfl
  | cons next rest => rw [locate, if_pos h]

theorem locate_of_le {p : Nat} {text : String} (h : text.utf8ByteSize ≤ p) (n : Nat)
    {ls : List String} (hls : ls ≠ []) :
    locate n p (text :: ls) = locate (n + 1) (p - text.utf8ByteSize) ls := by
  obtain ⟨next, rest, rfl⟩ := List.exists_cons_of_ne_nil hls
  rw [locate, if_neg (Nat.not_lt.mpr h)]

/-- A place on the first line is found at once. -/
theorem locate_line {line : List Char} (hline : '\n' ∉ line) (rest : List Char) (n : Nat) :
    locate n (String.utf8Len line) ((lines (line ++ rest)).map String.ofList) =
      ⟨n, String.ofList (line ++ restOfLine rest), String.utf8Len line⟩ := by
  by_cases hrest : rest = []
  · subst hrest
    rw [List.append_nil, restOfLine, List.append_nil]
    by_cases hnil : line = []
    · subst hnil
      rfl
    · rw [lines_of_not_mem hline hnil]
      rfl
  · -- the line goes on, so the place is not its end
    have hne : line ++ rest ≠ [] := by simp [hrest]
    obtain ⟨ls, hls⟩ := lines_eq_cons hne
    have hpos := Text.utf8Len_pos (restOfLine_ne_nil hrest)
    rw [hls, restOfLine_append hline, List.map_cons, locate_of_lt]
    rw [String.utf8ByteSize_ofList, String.utf8Len_append]
    omega

/-- **Whole lines before a place count for its line, what is left for its column.** -/
theorem locate_of_split {before line rest : List Char} (hbefore : WholeLines before)
    (hline : '\n' ∉ line) (hne : before = [] ∨ line ++ rest ≠ []) (n : Nat) :
    locate n (String.utf8Len (before ++ line))
        ((lines (before ++ (line ++ rest))).map String.ofList) =
      ⟨n + before.count '\n', String.ofList (line ++ restOfLine rest),
        String.utf8Len line⟩ := by
  induction hbefore generalizing n with
  | nil => exact locate_line hline rest n
  | @cons first later hfirst hlater ih =>
      have hne' : line ++ rest ≠ [] := hne.resolve_left (by simp)
      have hsize : (String.ofList (first ++ ['\n'])).utf8ByteSize =
          String.utf8Len first + '\n'.utf8Size := by
        rw [String.utf8ByteSize_ofList, String.utf8Len_append]
        rfl
      have hbytes : String.utf8Len (first ++ '\n' :: later ++ line) =
          String.utf8Len first + '\n'.utf8Size + String.utf8Len (later ++ line) := by
        simp only [String.utf8Len_append, String.utf8Len_cons]
        omega
      have hmore : (lines (later ++ (line ++ rest))).map String.ofList ≠ [] := by
        have hcs : later ++ (line ++ rest) ≠ [] := by simp [hne']
        simpa using lines_ne_nil hcs
      have hcount : (first ++ '\n' :: later).count '\n' = 1 + later.count '\n' := by
        rw [List.count_append, List.count_eq_zero_of_not_mem hfirst, List.count_cons_self]
        omega
      have hlines : lines (first ++ '\n' :: later ++ (line ++ rest)) =
          (first ++ ['\n']) :: lines (later ++ (line ++ rest)) := by
        rw [List.append_assoc, List.cons_append, lines_append_newline hfirst]
      rw [hbytes, hlines, List.map_cons, locate_of_le (by omega) n hmore, hsize,
        Nat.add_sub_cancel_left, ih (Or.inr hne'), hcount, Nat.add_assoc]

theorem locate?_of_split {source : String} {before line rest : List Char}
    (hsource : source.toList = before ++ (line ++ rest)) (hbefore : WholeLines before)
    (hline : '\n' ∉ line) (hne : before = [] ∨ line ++ rest ≠ []) :
    locate? source (String.utf8Len (before ++ line)) =
      some ⟨1 + before.count '\n', String.ofList (line ++ restOfLine rest),
        String.utf8Len line⟩ := by
  have hle : String.utf8Len (before ++ line) ≤ source.utf8ByteSize := by
    rw [← String.utf8Len_toList, hsource]
    simp only [String.utf8Len_append]
    omega
  rw [locate?, if_pos hle, hsource, locate_of_split hbefore hline hne]

end MiniLexer.Source
