import MiniLexer.Proofs.LineColumn
import MiniLexer.Text.Bytes

/-!
# Counting newlines

There is a way to find the line and the column of a position that knows no lines: count the
newlines among the bytes before it, and take what is behind the last of them (`counted`). The
walk over the lines agrees with it wherever the place has no newline before it on its own line
(`Location.IsPlace.counted_eq`).

There is one position where it has. The end of a source belongs to the last line, also if that
line is ended by a newline, and counting has gone on to a next line by then, which is empty and
which the walk never reports. So the two ways agree everywhere but at the end of a source that
ends in a newline.
-/

namespace MiniLexer.Source

open Text (bytes newlineByte)

/-- Where a line begins that goes on to the end of these bytes: behind the last newline, if there
is one. -/
def lineStart (bs : List UInt8) : Nat :=
  bs.length - (bs.reverse.takeWhile (· != newlineByte)).length

/-- The line and the column of a position, by the newlines before it. -/
def counted (source : String) (p : Nat) : Nat × Nat :=
  let before := (bytes source).take p
  (1 + before.count newlineByte, p - lineStart before)

/-- The position just behind the newline that a source ends in. -/
def IsPastFinalNewline (source : String) (p : Nat) : Prop :=
  p = source.utf8ByteSize ∧ ∃ rest, source = rest ++ "\n"

/-! ## The last newline -/

theorem lineStart_append {front back : List UInt8}
    (hfront : front = [] ∨ ∃ rest, front = rest ++ [newlineByte]) (hback : newlineByte ∉ back) :
    lineStart (front ++ back) = front.length := by
  have hall : ∀ b ∈ back.reverse, (b != newlineByte) = true := by
    intro b hb
    rw [bne_iff_ne]
    rintro rfl
    exact hback (List.mem_reverse.mp hb)
  have hstop : front.reverse.takeWhile (· != newlineByte) = [] := by
    rcases hfront with rfl | ⟨rest, rfl⟩
    · rfl
    · simp
  rw [lineStart, List.reverse_append, List.takeWhile_append_of_pos hall, hstop, List.append_nil,
    List.length_append, List.length_reverse, Nat.add_sub_cancel]

theorem counted_of_take {source : String} {p : Nat} {front back : List UInt8}
    (htake : (bytes source).take p = front ++ back)
    (hfront : front = [] ∨ ∃ rest, front = rest ++ [newlineByte]) (hback : newlineByte ∉ back) :
    counted source p = (1 + front.count newlineByte, p - front.length) := by
  simp only [counted]
  rw [htake, lineStart_append hfront hback, List.count_append,
    List.count_eq_zero_of_not_mem hback, Nat.add_zero]

/-! ## The newlines before a place -/

theorem newlineByte_mem_bytes_iff {s : String} : newlineByte ∈ bytes s ↔ '\n' ∈ s.toList := by
  rw [← List.count_pos_iff, Text.count_bytes, List.count_pos_iff]

theorem bytes_begins {before : String} (h : before = "" ∨ ∃ rest, before = rest ++ "\n") :
    bytes before = [] ∨ ∃ rest, bytes before = rest ++ [newlineByte] := by
  rcases h with rfl | ⟨rest, rfl⟩
  · exact Or.inl rfl
  · exact Or.inr ⟨bytes rest, Text.bytes_append rest "\n"⟩

namespace Location.IsPlace

variable {l : Location} {source before after : String} {p : Nat}

/-- Before a place stand the lines before its own, and so much of its own as the column says. -/
theorem take_bytes (h : l.IsPlace source p before after) :
    (bytes source).take p = bytes before ++ (bytes l.text).take l.column := by
  have hlen : l.column - (bytes l.text).length = 0 := by
    rw [Text.length_bytes]
    exact Nat.sub_eq_zero_of_le h.column_le
  rw [h.source_eq, ← h.position, Text.bytes_append, Text.bytes_append, List.append_assoc,
    ← Text.length_bytes, List.take_length_add_append, List.take_append, hlen, List.take_zero,
    List.append_nil]

/-- **Where the line has no newline before the place, counting finds the place.** -/
theorem counted_eq (h : l.IsPlace source p before after)
    (hno : newlineByte ∉ (bytes l.text).take l.column) :
    counted source p = (l.line, l.column) := by
  rw [counted_of_take h.take_bytes (bytes_begins h.begins) hno, Text.count_bytes, ← h.number,
    Text.length_bytes, ← h.position, Nat.add_sub_cancel_left]

theorem after_eq (h : l.IsPlace source p before after) (hp : p = source.utf8ByteSize) :
    after = "" := by
  have hsize := congrArg String.utf8ByteSize h.source_eq
  rw [String.utf8ByteSize_append, String.utf8ByteSize_append] at hsize
  have hcolumn := h.column_eq_iff.mpr hp
  have hposition := h.position
  rw [← String.utf8ByteSize_eq_zero_iff]
  omega

/-- **Only from the end of the source does one look back on the newline of one's own line.** -/
theorem not_mem_or (h : l.IsPlace source p before after) :
    newlineByte ∉ (bytes l.text).take l.column ∨
      p = source.utf8ByteSize ∧ ∃ line, '\n' ∉ line.toList ∧ source = before ++ line ++ "\n" := by
  rcases h.ends with ⟨line, hline, htext⟩ | ⟨hno, -⟩
  · by_cases hcolumn : l.column = l.text.utf8ByteSize
    · have hp := h.column_eq_iff.mp hcolumn
      have hsource := h.source_eq
      rw [h.after_eq hp, String.append_empty, htext, ← String.append_assoc] at hsource
      exact Or.inr ⟨hp, line, hline, hsource⟩
    · -- the newline is the last byte, and the place is before it
      have hle := h.column_le
      have hsize : l.text.utf8ByteSize = line.utf8ByteSize + 1 := by
        rw [htext, String.utf8ByteSize_append]
        rfl
      have hlen : l.column ≤ (bytes line).length := by
        rw [Text.length_bytes]
        omega
      rw [htext, Text.bytes_append, List.take_append_of_le_length hlen]
      exact Or.inl fun hmem =>
        hline (newlineByte_mem_bytes_iff.mp (List.mem_of_mem_take hmem))
  · exact Or.inl fun hmem => hno (newlineByte_mem_bytes_iff.mp (List.mem_of_mem_take hmem))

/-- At the end of a source that ends in a newline there is one before the place on its line. -/
theorem mem_of_ends (h : l.IsPlace source p before after) (hp : p = source.utf8ByteSize)
    (htext : l.text ≠ "") {rest : String} (hrest : source = rest ++ "\n") :
    newlineByte ∈ (bytes l.text).take l.column := by
  have hne : l.text.toList ≠ [] := by simpa using htext
  obtain ⟨cs, c, hcs⟩ : ∃ cs c, l.text.toList = cs ++ [c] :=
    ⟨_, _, (List.dropLast_concat_getLast hne).symm⟩
  have hsource := h.source_eq
  rw [h.after_eq hp, String.append_empty, hrest] at hsource
  have hchars : rest.toList ++ ['\n'] = before.toList ++ cs ++ [c] := by
    rw [List.append_assoc, ← hcs, ← String.toList_append, ← hsource, String.toList_append]
    rfl
  have hlast : ['\n'] = [c] := List.append_inj_right' hchars rfl
  rw [h.column_eq_iff.mpr hp, ← Text.length_bytes, List.take_length, newlineByte_mem_bytes_iff,
    hcs, ← hlast]
  simp

/-- There, counting has gone on to the next line. -/
theorem counted_of_ends (h : l.IsPlace source p before after) (hp : p = source.utf8ByteSize)
    {line : String} (hline : '\n' ∉ line.toList) (hsource : source = before ++ line ++ "\n") :
    counted source p = (l.line + 1, 0) := by
  have hlen : (bytes source).length = p := (Text.length_bytes source).trans hp.symm
  have htake : (bytes source).take p = bytes source ++ [] := by
    rw [List.append_nil, List.take_of_length_le (Nat.le_of_eq hlen)]
  have hcount : source.toList.count '\n' = before.toList.count '\n' + 1 := by
    rw [hsource, String.toList_append, String.toList_append, List.count_append, List.count_append,
      List.count_eq_zero_of_not_mem hline]
    rfl
  have hends := bytes_begins (Or.inr ⟨_, hsource⟩)
  rw [counted_of_take htake hends List.not_mem_nil, Text.count_bytes, hcount, h.number, hlen,
    Nat.sub_self, Nat.add_assoc]

end Location.IsPlace

/-! ## At the top -/

/--
**Counting newlines finds every place but the one past the newline that ends the source.**

That place stays on the line of the newline, behind it.
-/
theorem counted_iff {source : String} {p : Nat} (h : p ≤ source.utf8ByteSize) :
    ∃ l, locate? source p = some l ∧
      (counted source p = (l.line, l.column) ↔ ¬IsPastFinalNewline source p) ∧
      (IsPastFinalNewline source p →
        counted source p = (l.line + 1, 0) ∧ l.column = l.text.utf8ByteSize) := by
  obtain ⟨l, hl⟩ := exists_locate? h
  obtain ⟨before, after, hplace⟩ := exists_isPlace hl
  refine ⟨l, hl, ?_⟩
  rcases hplace.not_mem_or with hno | ⟨hp, line, hline, hsource⟩
  · have hpast : ¬IsPastFinalNewline source p := by
      rintro ⟨hp, rest, hrest⟩
      have hne : source ≠ "" := by simp [hrest]
      exact hno (hplace.mem_of_ends hp (text_ne_empty hl hne) hrest)
    exact ⟨iff_of_true (hplace.counted_eq hno) hpast, fun h => absurd h hpast⟩
  · have hpast : IsPastFinalNewline source p := ⟨hp, _, hsource⟩
    have hcounted := hplace.counted_of_ends hp hline hsource
    refine ⟨iff_of_false ?_ (not_not_intro hpast), fun _ =>
      ⟨hcounted, hplace.column_eq_iff.mpr hp⟩⟩
    rw [hcounted, Prod.mk.injEq]
    omega

/-- The newline of the first line is counted, and a place inside a character has a column. -/
theorem counted_iff_inside :
    3 ≤ "a\né\n".utf8ByteSize ∧ ∃ l, locate? "a\né\n" 3 = some l ∧
      (counted "a\né\n" 3 = (l.line, l.column) ↔ ¬IsPastFinalNewline "a\né\n" 3) ∧
      (IsPastFinalNewline "a\né\n" 3 →
        counted "a\né\n" 3 = (l.line + 1, 0) ∧ l.column = l.text.utf8ByteSize) :=
  have hle : 3 ≤ "a\né\n".utf8ByteSize := by decide
  ⟨hle, counted_iff hle⟩

/-- The newline that ends the source has been counted, and the place is still on its line. -/
theorem counted_past_final_newline :
    2 ≤ "a\n".utf8ByteSize ∧ counted "a\n" 2 = (2, 0) ∧
      locate? "a\n" 2 = some ⟨1, "a\n", 2⟩ := by
  decide +kernel

end MiniLexer.Source
