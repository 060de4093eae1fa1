import MiniLexer.Proofs.Caret
import MiniLexer.Proofs.LineColumn
import MiniLexer.Text.Bytes
import Mathlib.Data.List.DropRight

/-!
# How an excerpt is laid out

The three lines of an excerpt are made apart from each other: a gutter as wide as the line number,
the number with the trimmed line, a gutter again with dashes and the caret. That they fit
together is a matter of widths. The number of the line sets the bars, and what is trimmed from
the front of the line is taken from the column, so that the byte above the caret is the byte of
the source that the error stands at (`Excerpt.Draws.above`).

A position may be any byte, and only three things can happen to it. Its byte is printed, or it is
in the indentation, and the caret stays at the first printed column, or it is behind what is
printed of the line, and the caret goes past the text as far as the column says.
-/

namespace MiniLexer

open Text (bytes)

/-- The two lines that every report begins with. -/
def Error.header (e : Error) (file : String) : String :=
  "Error: " ++ e.name ++ " (" ++ e.tip.text ++ ")\n" ++ "-> " ++ file ++ "\n"

/-- A text without the indentation before it and the white space behind it. -/
structure Trims (text lead printed trail : String) : Prop where
  text_eq : text = lead ++ printed ++ trail
  lead : ∀ c ∈ lead.toList, isIndent c
  /-- Nothing is left of the indentation. -/
  head : ∀ c ∈ (printed ++ trail).toList.head?, isIndent c = false
  trail : ∀ c ∈ trail.toList, Text.isWhiteSpace c
  /-- Nothing is left of the white space. -/
  last : ∀ c ∈ printed.toList.getLast?, Text.isWhiteSpace c = false

/-- The first bar of a row is its byte number `n`. -/
def BarAt (n : Nat) (row : String) : Prop :=
  ∃ front back, row = front ++ "|" ++ back ∧ front.utf8ByteSize = n ∧ '|' ∉ front.toList

namespace Excerpt

/-- How many digits the number of the line has. -/
def digits (x : Excerpt) : Nat := (Nat.repr x.line).length

/-- The lines of an excerpt. -/
def rows (x : Excerpt) : List String := [gutter (Nat.repr x.line), x.sourceLine, x.caretLine]

/-- What the excerpt of the place `l` is like if `lead` and `trail` are trimmed from the line. -/
structure Draws (x : Excerpt) (source : String) (p : Nat) (l : Source.Location)
    (lead trail : String) : Prop where
  number : x.line = l.line
  trims : Trims l.text lead x.text trail
  sourceLine_eq : x.sourceLine = Nat.repr l.line ++ " | " ++ x.text
  newline : ∀ row ∈ x.rows, '\n' ∉ row.toList
  /-- The bars stand below each other. -/
  bars : ∀ row ∈ x.rows, BarAt (x.digits + 1) row
  /-- Between the bar and the caret is a space, and dashes up to the column. -/
  caret : ∃ front dashes, x.caretLine = front ++ "|" ++ " " ++ dashes ++ "^" ∧
    (∀ c ∈ front.toList, c = ' ') ∧ (∀ c ∈ dashes.toList, c = '-') ∧
    (front ++ "|" ++ " " ++ dashes).utf8ByteSize = x.digits + 3 + (l.column - lead.length)
  /-- Above the caret is the byte of the position, if it is printed. -/
  above : lead.length ≤ l.column → l.column < lead.length + x.text.utf8ByteSize →
    ∃ b, (bytes source)[p]? = some b ∧
      (bytes x.sourceLine)[x.digits + 3 + (l.column - lead.length)]? = some b
  /-- The caret of a position in the indentation is below the first byte that is printed. -/
  indented : l.column < lead.length → ∃ front, x.caretLine = front ++ "^" ∧
    front.utf8ByteSize = (Nat.repr l.line ++ " | ").utf8ByteSize

end Excerpt

/-! ## Trimming -/

theorem trims_ofLocation (l : Source.Location) :
    ∃ lead trail, Trims l.text lead (Excerpt.ofLocation l).text trail ∧
      lead.toList = l.text.toList.takeWhile isIndent := by
  have hsplit : Text.trimEnd (l.text.toList.dropWhile isIndent) ++
      (l.text.toList.dropWhile isIndent).rtakeWhile Text.isWhiteSpace =
        l.text.toList.dropWhile isIndent := List.rdropWhile_append_rtakeWhile
  refine ⟨String.ofList (l.text.toList.takeWhile isIndent),
    String.ofList ((l.text.toList.dropWhile isIndent).rtakeWhile Text.isWhiteSpace), ?_,
    String.toList_ofList⟩
  constructor
  case text_eq =>
    rw [Excerpt.ofLocation, ← String.ofList_append, ← String.ofList_append, List.append_assoc,
      hsplit, List.takeWhile_append_dropWhile, String.ofList_toList]
  case lead =>
    rw [String.toList_ofList]
    exact fun c => List.mem_takeWhile_imp
  case head =>
    rw [Excerpt.ofLocation, ← String.ofList_append, hsplit, String.toList_ofList]
    exact Lexeme.head?_dropWhile
  case trail =>
    rw [String.toList_ofList]
    exact fun c => List.mem_rtakeWhile_imp
  case last =>
    intro c hc
    rw [Excerpt.ofLocation, String.toList_ofList, Text.trimEnd, List.getLast?_reverse] at hc
    exact Lexeme.head?_dropWhile c hc

theorem Trims.utf8ByteSize_lead {text lead printed trail : String}
    (h : Trims text lead printed trail) : lead.utf8ByteSize = lead.length := by
  rw [← String.utf8Len_toList, ← String.length_toList]
  exact utf8Len_of_isIndent h.lead

/-! ## Widths -/

theorem utf8ByteSize_replicate {c : Char} (hc : c.utf8Size = 1) (n : Nat) :
    (String.ofList (List.replicate n c)).utf8ByteSize = n := by
  rw [String.utf8ByteSize_ofList, Text.utf8Len_replicate hc]

namespace Excerpt

theorem barAt_of_mem_rows {x : Excerpt} {row : String} (h : row ∈ x.rows) :
    BarAt (x.digits + 1) row := by
  have hspaces : '|' ∉ (String.ofList (List.replicate (x.digits + 1) ' ')).toList := by
    simp [String.toList_ofList]
  have hwidth := utf8ByteSize_replicate (c := ' ') rfl (x.digits + 1)
  simp only [rows, List.mem_cons, List.not_mem_nil, or_false] at h
  rcases h with rfl | rfl | rfl
  · exact ⟨_, "", (String.append_empty).symm, hwidth, hspaces⟩
  · -- a number has digits alone, so its first bar is the one behind it
    have hbar : " | " = " " ++ "|" ++ " " := by decide
    have hdigits : '|' ∉ (Nat.repr x.line).toList := fun hmem =>
      absurd (isDigit_of_mem_repr hmem) (by decide)
    refine ⟨Nat.repr x.line ++ " ", " " ++ x.text, ?_, ?_, ?_⟩
    · simp only [sourceLine, hbar, String.append_assoc]
    · rw [String.utf8ByteSize_append, utf8ByteSize_repr]
      rfl
    · simpa using hdigits
  · refine ⟨_, " " ++ String.ofList (List.replicate x.caret '-') ++ "^", ?_, hwidth, hspaces⟩
    simp only [caretLine, gutter, digits, String.append_assoc]

/-- What is before the caret is as wide as the gutter, the space and the dashes. -/
theorem utf8ByteSize_before_caret (x : Excerpt) :
    (gutter (Nat.repr x.line) ++ " " ++
      String.ofList (List.replicate x.caret '-')).utf8ByteSize = x.digits + 3 + x.caret := by
  have hbar : "|".utf8ByteSize = 1 ∧ " ".utf8ByteSize = 1 := by decide
  simp only [gutter, String.utf8ByteSize_append, utf8ByteSize_replicate (c := ' ') rfl,
    utf8ByteSize_replicate (c := '-') rfl, hbar, digits]

theorem exists_dashes (x : Excerpt) :
    ∃ front dashes, x.caretLine = front ++ "|" ++ " " ++ dashes ++ "^" ∧
      (∀ c ∈ front.toList, c = ' ') ∧ (∀ c ∈ dashes.toList, c = '-') ∧
      (front ++ "|" ++ " " ++ dashes).utf8ByteSize = x.digits + 3 + x.caret :=
  ⟨String.ofList (List.replicate (x.digits + 1) ' '), String.ofList (List.replicate x.caret '-'),
    rfl, by simp, by simp, utf8ByteSize_before_caret x⟩

/-- So wide is what stands before the printed text. -/
theorem utf8ByteSize_number (x : Excerpt) :
    (Nat.repr x.line ++ " | ").utf8ByteSize = x.digits + 3 := by
  rw [String.utf8ByteSize_append, utf8ByteSize_repr]
  rfl

end Excerpt

/-! ## The byte above the caret -/

theorem Text.getElem?_bytes_append (front text back : String) {i : Nat}
    (h : i < text.utf8ByteSize) :
    (bytes (front ++ text ++ back))[front.utf8ByteSize + i]? = (bytes text)[i]? := by
  have hi : i < (bytes text).length := by rwa [Text.length_bytes]
  rw [bytes_append, bytes_append, List.append_assoc, ← length_bytes,
    List.getElem?_append_right (Nat.le_add_right _ _), Nat.add_sub_cancel_left,
    List.getElem?_append_left hi]

namespace Excerpt

variable {source : String} {p : Nat} {l : Source.Location} {before after lead trail : String}

/-- A byte of the printed text is a byte of the source, and of the printed line. -/
theorem getElem?_bytes_above {x : Excerpt} (hplace : l.IsPlace source p before after)
    (htrims : Trims l.text lead x.text trail) (hle : lead.length ≤ l.column)
    (hlt : l.column < lead.length + x.text.utf8ByteSize) :
    ∃ b, (bytes source)[p]? = some b ∧
      (bytes x.sourceLine)[x.digits + 3 + (l.column - lead.length)]? = some b := by
  have hlead := htrims.utf8ByteSize_lead
  have hi : l.column - lead.length < x.text.utf8ByteSize := by omega
  -- in both texts the printed one is preceded by as much as the position is from its beginning
  have hsource : source = before ++ lead ++ x.text ++ (trail ++ after) := by
    rw [hplace.source_eq, htrims.text_eq]
    simp only [String.append_assoc]
  have hp : p = (before ++ lead).utf8ByteSize + (l.column - lead.length) := by
    have hposition := hplace.position
    rw [String.utf8ByteSize_append]
    omega
  have hrow : x.sourceLine = Nat.repr x.line ++ " | " ++ x.text ++ "" :=
    (String.append_empty).symm
  have hbyte : l.column - lead.length < (bytes x.text).length := by rwa [Text.length_bytes]
  refine ⟨(bytes x.text)[l.column - lead.length], ?_, ?_⟩
  · rw [hsource, hp, Text.getElem?_bytes_append _ _ _ hi, List.getElem?_eq_getElem hbyte]
  · rw [hrow, ← x.utf8ByteSize_number, Text.getElem?_bytes_append _ _ _ hi,
      List.getElem?_eq_getElem hbyte]

theorem newline_not_mem_text (hplace : l.IsPlace source p before after) :
    '\n' ∉ (ofLocation l).text.toList := by
  rw [ofLocation, String.toList_ofList]
  rcases hplace.ends with ⟨line, hline, htext⟩ | ⟨hno, -⟩
  · refine newline_not_mem_trimmed hline (Or.inr ?_)
    rw [htext, String.toList_append]
    rfl
  · exact newline_not_mem_trimmed hno (Or.inl rfl)

/-! ## The whole report -/

/-- **An excerpt is drawn around the byte of its position.** -/
theorem exists_draws (hplace : l.IsPlace source p before after) :
    ∃ lead trail, (ofLocation l).Draws source p l lead trail := by
  obtain ⟨lead, trail, htrims, hlead⟩ := trims_ofLocation l
  have hcaret : (ofLocation l).caret = l.column - lead.length := by
    rw [← String.length_toList, hlead, ofLocation]
  refine ⟨lead, trail, ?_⟩
  constructor
  case number => rfl
  case trims => exact htrims
  case sourceLine_eq => rfl
  case newline =>
    intro row hrow
    simp only [rows, List.mem_cons, List.not_mem_nil, or_false] at hrow
    rcases hrow with rfl | rfl | rfl
    · simp [gutter]
    · exact newline_not_mem_sourceLine (newline_not_mem_text hplace)
    · exact newline_not_mem_caretLine _
  case bars => exact fun row => barAt_of_mem_rows
  case caret =>
    rw [← hcaret]
    exact exists_dashes _
  case above => exact getElem?_bytes_above hplace htrims
  case indented =>
    intro hlt
    -- no dashes are left
    have hzero : (ofLocation l).caret = 0 :=
      hcaret.trans (Nat.sub_eq_zero_of_le (Nat.le_of_lt hlt))
    refine ⟨_, rfl, ?_⟩
    rw [utf8ByteSize_before_caret, hzero]
    exact (utf8ByteSize_number _).symm

end Excerpt

/-- Every cause has a tip, so the first line of a report always shows one. -/
theorem Cause.headline_eq (c : Cause) :
    c.headline = "Error: " ++ c.name ++ " (" ++ c.tip.text ++ ")\n" := by
  cases c <;> rfl

namespace Error

/--
**A report is its header, and an excerpt drawn around the byte that the error stands at, if the
source has it.**

The end of the source is a position too.
-/
theorem render_draws (e : Error) (file source : String) :
    (source.utf8ByteSize < e.position.toNat → e.render file source = e.header file) ∧
    (e.position.toNat ≤ source.utf8ByteSize → ∃ x l lead trail,
      Source.locate? source e.position.toNat = some l ∧
      Excerpt.Draws x source e.position.toNat l lead trail ∧
      e.render file source = e.header file ++ (Excerpt.gutter (Nat.repr x.line) ++ "\n" ++
        x.sourceLine ++ "\n" ++ x.caretLine ++ "\n")) := by
  have hheader : e.cause.headline ++ "-> " ++ file ++ "\n" = e.header file := by
    rw [Cause.headline_eq]
    rfl
  constructor
  · intro hlt
    have hnone := Source.locate?_eq_none_iff.mpr hlt
    rw [render, excerpt?, hnone, ← hheader]
    rfl
  · intro hle
    obtain ⟨l, hl⟩ := Source.exists_locate? hle
    obtain ⟨before, after, hplace⟩ := Source.exists_isPlace hl
    obtain ⟨lead, trail, hdraws⟩ := Excerpt.exists_draws hplace
    refine ⟨Excerpt.ofLocation l, l, lead, trail, hl, hdraws, ?_⟩
    rw [render, excerpt?, hl, ← hheader, ← Excerpt.render_eq]
    rfl

end Error

end MiniLexer
