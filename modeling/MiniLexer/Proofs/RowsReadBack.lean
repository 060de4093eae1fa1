import MiniLexer.Proofs.Lines
import MiniLexer.Proofs.Listing
import MiniLexer.Proofs.Respacing
import MiniLexer.Proofs.Tiling

/-!
# Reading a listing back

Nothing is escaped in the rows of a listing. A text with a tab or a newline in it would be printed
as it is, and the row could not be told from another. No scan finds such a text, for lexemes hold
letters, digits and operators only. So a newline in the rows ends one of them and the first tab of
a row ends its text, and the rows are read back as the kinds and texts that were printed
(`readRows?_printedRows`).

The kinds are printed for the reader alone. Which one it is hangs on the text
(`readings_eq_filterMap`), so rows are the same where the texts are.
-/

namespace MiniLexer

open Lexeme (Spells not_mem_of_isTokenChar)

/-- The rows of a source as they are printed, each on a line. -/
def printedRows (source : String) : String :=
  String.join ((tokenize source).rows.map (· ++ "\n"))

/-- What a row says: before its first tab there is a text, and behind one more the name of a
kind. -/
def readRow? (row : List Char) : Option (TokenKind × String) :=
  match row.dropWhile (· ≠ '\t') with
  | '\t' :: '\t' :: name =>
    (TokenKind.ofName? (String.ofList name)).map fun kind =>
      (kind, String.ofList (row.takeWhile (· ≠ '\t')))
  | _ => none

/-- What printed rows say, line by line. -/
def readRows? (printed : String) : Option (List (TokenKind × String)) :=
  (Source.lines printed.toList).mapM fun line => readRow? (line.takeWhile (· ≠ '\n'))

/-- The rows of a source can be told apart and taken apart. -/
structure Legible (source : String) : Prop where
  /-- The rows are the last thing printed for the source. -/
  block : Cli.block source = "parse:\t" ++ source ++ "\n" ++ "text\ttype\n" ++ printedRows source
  /-- Each token has its line, and the newline at the end is the only one there. -/
  lines : Source.lines (printedRows source).toList =
    (tokenize source).tokens.toList.map fun t => t.row.toList ++ ['\n']
  newline : ∀ t ∈ (tokenize source).tokens.toList, '\n' ∉ t.row.toList
  /-- A row is the text, two tabs and the name of the kind, and its first tab ends the text. -/
  row : ∀ t ∈ (tokenize source).tokens.toList,
    t.row.toList = t.text.toList ++ '\t' :: '\t' :: t.kind.name.toList ∧ '\t' ∉ t.text.toList
  /-- It is the name of no other kind. -/
  name : ∀ t ∈ (tokenize source).tokens.toList, ∀ kind : TokenKind,
    kind.name = t.kind.name ↔ kind = t.kind
  /-- So the kinds and texts are read back as they were found. -/
  readBack : readRows? (printedRows source) = some (readings source)

/-! ## One row -/

theorem newline_not_mem_name (kind : TokenKind) : '\n' ∉ kind.name.toList := by
  cases kind <;> decide

theorem spells_of_mem {source : String} {t : Token}
    (h : t ∈ (tokenize source).tokens.toList) : Spells t.kind t.text.toList := by
  obtain ⟨l, -, -, htokens⟩ := Layout.exists_of_source source
  rw [htokens] at h
  exact Pieces.shaped h

theorem toList_row (t : Token) :
    t.row.toList = t.text.toList ++ '\t' :: '\t' :: t.kind.name.toList := by
  rw [Token.row, String.toList_append, String.toList_append, List.append_assoc]
  rfl

theorem newline_not_mem_row {t : Token} (ht : Spells t.kind t.text.toList) :
    '\n' ∉ t.row.toList := by
  have htext : '\n' ∉ t.text.toList := not_mem_of_isTokenChar ht.isTokenChar rfl
  rw [toList_row]
  simp [htext, newline_not_mem_name]

/-- **A row says the kind and the text of its token.** -/
theorem readRow?_row {t : Token} (ht : Spells t.kind t.text.toList) :
    readRow? t.row.toList = some t.reading := by
  have htab : ∀ c ∈ t.text.toList, decide (c ≠ '\t') = true := by
    intro c hc
    rw [decide_eq_true_eq]
    rintro rfl
    exact not_mem_of_isTokenChar ht.isTokenChar rfl hc
  have hstop : ∀ c ∈ ('\t' :: '\t' :: t.kind.name.toList).head?, decide (c ≠ '\t') = false := by
    simp
  have htext := Lexeme.takeWhile_append_of_head htab hstop
  have hname := Lexeme.dropWhile_append_of_head htab hstop
  rw [readRow?, toList_row, hname, htext]
  simp [TokenKind.ofName?_name, Token.reading]

/-! ## All rows -/

/-- Lines that hold no newline are found again. -/
theorem lines_flatMap_newline {rows : List (List Char)} (h : ∀ row ∈ rows, '\n' ∉ row) :
    Source.lines (rows.flatMap (· ++ ['\n'])) = rows.map (· ++ ['\n']) := by
  induction rows with
  | nil => rfl
  | cons row rows ih =>
      have hrest := ih fun r hr => h r (List.mem_cons_of_mem _ hr)
      rw [List.flatMap_cons, List.append_assoc, List.singleton_append,
        Source.lines_append_newline (h row List.mem_cons_self), hrest, List.map_cons]

theorem toList_printedRows (source : String) : (printedRows source).toList =
    ((tokenize source).tokens.toList.map fun t => t.row.toList).flatMap (· ++ ['\n']) := by
  rw [printedRows, Cli.rows_tokenize, String.toList_join, List.map_map, List.flatMap_map,
    List.flatMap_map]
  refine List.flatMap_congr fun t _ => ?_
  rw [Function.comp_apply, String.toList_append]
  rfl

theorem lines_printedRows (source : String) : Source.lines (printedRows source).toList =
    (tokenize source).tokens.toList.map fun t => t.row.toList ++ ['\n'] := by
  rw [toList_printedRows, lines_flatMap_newline, List.map_map]
  · rfl
  · intro row hrow
    obtain ⟨t, ht, rfl⟩ := List.mem_map.mp hrow
    exact newline_not_mem_row (spells_of_mem ht)

theorem mapM_eq_some_map {α β : Type} {f : α → Option β} {g : α → β} {l : List α}
    (h : ∀ x ∈ l, f x = some (g x)) : l.mapM f = some (l.map g) := by
  induction l with
  | nil => rfl
  | cons x l ih =>
      rw [List.mapM_cons, h x List.mem_cons_self, ih fun y hy => h y (List.mem_cons_of_mem _ hy)]
      rfl

/-- **The printed rows say which kinds and texts were found.** -/
theorem readRows?_printedRows (source : String) :
    readRows? (printedRows source) = some (readings source) := by
  rw [readRows?, lines_printedRows, List.mapM_map, readings]
  refine mapM_eq_some_map fun t ht => ?_
  have hspells := spells_of_mem ht
  have hline : (t.row.toList ++ ['\n']).takeWhile (· ≠ '\n') = t.row.toList := by
    refine Lexeme.takeWhile_append_of_head ?_ (by simp)
    intro c hc
    rw [decide_eq_true_eq]
    rintro rfl
    exact newline_not_mem_row hspells hc
  rw [Function.comp_apply, hline, readRow?_row hspells]

theorem legible (source : String) : Legible source where
  block := rfl
  lines := lines_printedRows source
  newline := fun _ ht => newline_not_mem_row (spells_of_mem ht)
  row := fun t ht => ⟨toList_row t, not_mem_of_isTokenChar (spells_of_mem ht).isTokenChar rfl⟩
  name := fun _ _ _ => ⟨TokenKind.name_injective, congrArg TokenKind.name⟩
  readBack := readRows?_printedRows source

/-! ## Rows and texts -/

/-- The texts that are found in a source. -/
def texts (source : String) : List String := (tokenize source).tokens.toList.map Token.text

/-- The kinds hang on the texts. -/
theorem readings_eq_filterMap (source : String) : readings source =
    (texts source).filterMap fun text =>
      (Lexeme.kind? text.toList).map fun kind => (kind, text) := by
  rw [texts, List.filterMap_map, readings, ← List.filterMap_eq_map]
  refine List.filterMap_congr fun t ht => ?_
  have hkind := Lexeme.kind?_eq_some_iff.mpr (spells_of_mem ht)
  rw [Function.comp_apply, Function.comp_apply, hkind]
  rfl

theorem readings_eq_iff (s₁ s₂ : String) : readings s₁ = readings s₂ ↔ texts s₁ = texts s₂ := by
  constructor
  · intro h
    have htexts := congrArg (List.map Prod.snd) h
    rwa [readings, readings, List.map_map, List.map_map] at htexts
  · intro h
    rw [readings_eq_filterMap, readings_eq_filterMap, h]

theorem rows_eq (source : String) : (tokenize source).rows =
    (readings source).map fun reading => reading.2 ++ "\t\t" ++ reading.1.name := by
  rw [Cli.rows_tokenize, readings, List.map_map]
  rfl

/--
**A listing is read back, and two are alike where the texts are.**

The text of a row and the name behind it hold no newline, and the text holds no tab, so the lines
that are printed say which tokens were found. The kinds add nothing to tell two listings apart,
as the texts determine them.
-/
theorem rows_readBack (s₁ s₂ : String) :
    Legible s₁ ∧ (printedRows s₁ = printedRows s₂ ↔ texts s₁ = texts s₂) ∧
      ((tokenize s₁).rows = (tokenize s₂).rows ↔ texts s₁ = texts s₂) ∧
      (texts s₁ = texts s₂ → readings s₁ = readings s₂) := by
  have hrows : readings s₁ = readings s₂ → (tokenize s₁).rows = (tokenize s₂).rows := by
    intro h
    rw [rows_eq, rows_eq, h]
  have hprinted : printedRows s₁ = printedRows s₂ → texts s₁ = texts s₂ := by
    intro h
    have hread := readRows?_printedRows s₁
    rw [h, readRows?_printedRows s₂] at hread
    exact (readings_eq_iff s₁ s₂).mp (Option.some.inj hread).symm
  refine ⟨legible s₁, ⟨hprinted, ?_⟩, ⟨?_, ?_⟩, (readings_eq_iff s₁ s₂).mpr⟩
  · intro h
    rw [printedRows, hrows ((readings_eq_iff s₁ s₂).mpr h)]
    rfl
  · intro h
    apply hprinted
    rw [printedRows, h]
    rfl
  · intro h
    exact hrows ((readings_eq_iff s₁ s₂).mpr h)

end MiniLexer
