import MiniLexer.Diagnostic
import MiniLexer.Proofs.Lines
import MiniLexer.Proofs.Tiling
import MiniLexer.TokenStream.Op

/-!
# Where the caret points

An expectation that fails has its place from the span of a token, the place becomes a line and a
column, and the line is printed without its indentation and the white space at its end, the
caret moving along. This file follows a place through all of it. Whatever is done with the
tokens of a source before, the caret of the report stands below the first byte of the token that
is in the way, or just behind the last one where the tokens have come to an end.

A lexeme holds no white space, so it stands on one line and no trimming touches it: what is
printed of its line is some text, the lexeme and more text (`Excerpt.exists_of_cut`), also when
the place is the lexeme's end and the line goes no further.

The caret is put by bytes. A reader who counts characters finds it in the same column exactly
if the printed line is ASCII up to there.
-/

namespace MiniLexer

open Lexeme (isTokenChar)

/-! ## The lines of a report -/

namespace Excerpt

/-- The line of the source as it is printed, with its number. -/
def sourceLine (x : Excerpt) : String := Nat.repr x.line ++ " | " ++ x.text

/-- The line with the caret, below it. -/
def caretLine (x : Excerpt) : String :=
  gutter (Nat.repr x.line) ++ " " ++ String.ofList (List.replicate x.caret '-') ++ "^"

/-- What stands before the caret of the last line. -/
def beforeCaret (x : Excerpt) : List Char := x.caretLine.toList.takeWhile (· ≠ '^')

/-- The printed line falls into two parts, and the caret stands below the first byte of the
second. -/
def Splits (x : Excerpt) (front back : String) : Prop :=
  x.sourceLine = front ++ back ∧ front.utf8ByteSize = String.utf8Len x.beforeCaret

end Excerpt

/-- What the report of an error is like, wherever its caret stands. -/
structure Excerpt.Reports (x : Excerpt) (source : String) (e : Error) : Prop where
  /-- A report ends in three lines, of which the last has one caret. -/
  report : ∀ file, e.render file source = e.cause.headline ++ "-> " ++ file ++ "\n" ++
    (gutter (Nat.repr x.line) ++ "\n" ++ x.sourceLine ++ "\n" ++ x.caretLine ++ "\n")
  lines : '\n' ∉ (gutter (Nat.repr x.line)).toList ∧ '\n' ∉ x.sourceLine.toList ∧
    '\n' ∉ x.caretLine.toList ∧ x.caretLine.toList.count '^' = 1
  /-- The number is the one of the line that the error stands on. -/
  line : ∃ before after, source = before ++ after ∧
    before.utf8ByteSize = e.position.toNat ∧ x.line = 1 + before.toList.count '\n'
  /-- Characters and bytes agree on the column of the caret where the line is ASCII before it. -/
  columns : ∀ front back, x.Splits front back →
    (x.beforeCaret.length = front.length ↔ ∀ c ∈ front.toList, c.toNat < 128)

/-- What a report shows of an expectation that failed, the stream being `s`. -/
structure Excerpt.Shows (x : Excerpt) (source : String) (s : TokenStream) (kind : TokenKind)
    (e : Error) : Prop extends x.Reports source e where
  /-- The caret stands below the text of the token that is in the way. -/
  token : ∀ t ∈ s.peek, e.cause = .unexpectedToken t.text kind ∧
    ∃ front back, x.Splits front (t.text ++ back)
  /-- Where no token is left, it stands behind the text of the last one. -/
  ending : s.peek = none → e.cause = .unexpectedEnd kind ∧
    ∀ t ∈ s.tokens.back?, ∃ front back, x.Splits (front ++ t.text) back
  /-- Where there are none at all, it stands at the beginning of the first line. -/
  empty : s.tokens = #[] → x.line = 1 ∧
    String.utf8Len x.beforeCaret = "1 | ".utf8ByteSize

/-! ## Classes of characters -/

theorem toNat_of_isTokenChar {c : Char} (h : isTokenChar c) : 33 ≤ c.toNat ∧ c.toNat ≤ 126 := by
  rw [isTokenChar, Bool.or_eq_true] at h
  rcases h with halnum | hop
  · unfold Char.isAlphanum Char.isAlpha Char.isUpper Char.isLower Char.isDigit at halnum
    simp only [Bool.or_eq_true, Bool.and_eq_true, decide_eq_true_eq, ge_iff_le,
      UInt32.le_iff_toNat_le] at halnum
    have hc : c.toNat = c.val.toNat := rfl
    have hlow : 33 ≤ '0'.val.toNat ∧ 33 ≤ 'A'.val.toNat ∧ 33 ≤ 'a'.val.toNat := by decide
    have hhigh : '9'.val.toNat ≤ 126 ∧ 'Z'.val.toNat ≤ 126 ∧ 'z'.val.toNat ≤ 126 := by decide
    omega
  · obtain ⟨kind, hkind⟩ := Option.isSome_iff_exists.mp hop
    unfold TokenKind.ofOperator? at hkind
    split at hkind
    case h_10 => simp at hkind
    all_goals decide

theorem isWhiteSpace_of_isTokenChar {c : Char} (h : isTokenChar c) :
    Text.isWhiteSpace c = false := by
  have := toNat_of_isTokenChar h
  simp only [Text.isWhiteSpace, Bool.or_eq_false_iff, Bool.and_eq_false_iff,
    decide_eq_false_iff_not]
  omega

theorem isIndent_of_isTokenChar {c : Char} (h : isTokenChar c) : isIndent c = false := by
  by_contra hindent
  simp only [isIndent, Bool.not_eq_false, Bool.or_eq_true, decide_eq_true_eq] at hindent
  rcases hindent with rfl | rfl <;> exact absurd h (by decide)

theorem newline_not_mem_of_isTokenChar {w : List Char} (h : ∀ c ∈ w, isTokenChar c) :
    '\n' ∉ w := Lexeme.not_mem_of_isTokenChar h rfl

theorem Text.length_le_utf8Len (cs : List Char) : cs.length ≤ String.utf8Len cs := by
  induction cs with
  | nil => exact Nat.le_refl 0
  | cons c cs ih =>
      have hpos := c.utf8Size_pos
      rw [String.utf8Len_cons, List.length_cons]
      omega

/-- A text has as many bytes as characters exactly if it is ASCII. -/
theorem Text.utf8Len_eq_length_iff (cs : List Char) :
    String.utf8Len cs = cs.length ↔ ∀ c ∈ cs, c.toNat < 128 := by
  induction cs with
  | nil => simp
  | cons c cs ih =>
      have hsize : c.utf8Size = 1 ↔ c.toNat < 128 := by
        rw [Char.utf8Size_eq_one_iff, UInt32.le_iff_toNat_le, ← Nat.lt_succ_iff]
        exact Iff.rfl
      have hpos := c.utf8Size_pos
      have hle := length_le_utf8Len cs
      rw [List.forall_mem_cons, ← ih, ← hsize, String.utf8Len_cons, List.length_cons]
      omega

/-! ## Trimming a line -/

section
variable {p : Char → Bool} {c : Char}

theorem takeWhile_append_cons (hc : p c = false) (as bs : List Char) :
    (as ++ c :: bs).takeWhile p = as.takeWhile p := by
  induction as with
  | nil => simp [hc]
  | cons a as ih =>
      rw [List.cons_append, List.takeWhile_cons, List.takeWhile_cons, ih]

theorem dropWhile_append_cons (hc : p c = false) (as bs : List Char) :
    (as ++ c :: bs).dropWhile p = as.dropWhile p ++ c :: bs := by
  induction as with
  | nil => simp [hc]
  | cons a as ih =>
      rw [List.cons_append, List.dropWhile_cons, List.dropWhile_cons, ih]
      split
      · rfl
      · rfl

end

namespace Text

/-- What is behind a character that is no white space is trimmed on its own. -/
theorem trimEnd_append_cons {c : Char} (hc : isWhiteSpace c = false) (as bs : List Char) :
    trimEnd (as ++ c :: bs) = as ++ c :: trimEnd bs := by
  have hreverse : (as ++ c :: bs).reverse = bs.reverse ++ c :: as.reverse := by simp
  rw [trimEnd, trimEnd, hreverse, dropWhile_append_cons hc]
  simp

theorem trimEnd_append {w : List Char} (hw : w ≠ []) (h : ∀ c ∈ w, isWhiteSpace c = false)
    (as bs : List Char) : trimEnd (as ++ w ++ bs) = as ++ w ++ trimEnd bs := by
  obtain ⟨ws, c, rfl⟩ := (List.eq_nil_or_concat' w).resolve_left hw
  have := trimEnd_append_cons (h c (by simp)) (as ++ ws) bs
  simpa using this

theorem mem_of_mem_trimEnd {c : Char} {cs : List Char} (h : c ∈ trimEnd cs) : c ∈ cs := by
  rw [trimEnd, List.mem_reverse] at h
  exact List.mem_reverse.mp ((List.dropWhile_suffix _).subset h)

theorem trimEnd_concat {c : Char} (hc : isWhiteSpace c) (cs : List Char) :
    trimEnd (cs ++ [c]) = trimEnd cs := by
  simp [trimEnd, hc]

end Text

/-- What is printed of a line has no newline: the one that ends it is trimmed. -/
theorem newline_not_mem_trimmed {line cs : List Char} (hline : '\n' ∉ line)
    (h : cs = line ∨ cs = line ++ ['\n']) : '\n' ∉ Text.trimEnd (cs.dropWhile isIndent) := by
  have hdrop : '\n' ∉ Text.trimEnd (line.dropWhile isIndent) := fun hmem =>
    hline ((List.dropWhile_suffix _).subset (Text.mem_of_mem_trimEnd hmem))
  rcases h with rfl | rfl
  · exact hdrop
  · rw [dropWhile_append_cons rfl, Text.trimEnd_concat rfl]
    exact hdrop

theorem newline_not_mem_printed (cs : List Char) :
    '\n' ∉ Text.trimEnd ((Source.restOfLine cs).dropWhile isIndent) := by
  obtain ⟨line, hline, heq⟩ := Source.exists_restOfLine cs
  exact newline_not_mem_trimmed hline heq

/-! ## A place at a lexeme -/

/-- The characters of an indentation are its bytes. -/
theorem utf8Len_of_isIndent {cs : List Char} (h : ∀ c ∈ cs, isIndent c) :
    String.utf8Len cs = cs.length := by
  rw [Text.utf8Len_eq_length_iff]
  intro c hc
  have hindent := h c hc
  simp only [isIndent, Bool.or_eq_true, decide_eq_true_eq] at hindent
  rcases hindent with rfl | rfl <;> decide

theorem utf8Len_takeWhile_isIndent (cs : List Char) :
    String.utf8Len (cs.takeWhile isIndent) = (cs.takeWhile isIndent).length :=
  utf8Len_of_isIndent fun _ => List.mem_takeWhile_imp

theorem Excerpt.text_ofLocation (n column : Nat) (cs : List Char) :
    (ofLocation ⟨n, String.ofList cs, column⟩).text =
      String.ofList (Text.trimEnd (cs.dropWhile isIndent)) := by
  simp only [ofLocation, String.toList_ofList]

theorem Excerpt.caret_ofLocation (n column : Nat) (cs : List Char) :
    (ofLocation ⟨n, String.ofList cs, column⟩).caret =
      column - (cs.takeWhile isIndent).length := by
  simp only [ofLocation, String.toList_ofList]

/--
**What is printed of a line that holds a lexeme is some text, the lexeme, and more text.**

The place may be anywhere in the lexeme, its end included: the bytes before the caret are then
those before the place, but for the indentation.
-/
theorem Excerpt.exists_of_cut {source : String} {pre w post v v' : List Char}
    (hsource : source.toList = pre ++ w ++ post) (hne : w ≠ []) (htok : ∀ c ∈ w, isTokenChar c)
    (hw : v ++ v' = w) :
    ∃ x front back,
      (Source.locate? source (String.utf8Len (pre ++ v))).map ofLocation = some x ∧
      x.line = 1 + (pre ++ v).count '\n' ∧ '\n' ∉ x.text.toList ∧
      x.text = String.ofList (front ++ w ++ back) ∧ x.caret = String.utf8Len (front ++ v) := by
  subst hw
  obtain ⟨before, line, rfl, hbefore, hline⟩ := Source.exists_wholeLines_append pre
  have hv : '\n' ∉ v := newline_not_mem_of_isTokenChar fun c hc => htok c (by simp [hc])
  have hv' : '\n' ∉ v' := newline_not_mem_of_isTokenChar fun c hc => htok c (by simp [hc])
  have hlv : '\n' ∉ line ++ v := by simp [hline, hv]
  have hlocate : Source.locate? source (String.utf8Len (before ++ line ++ v)) =
      some ⟨1 + before.count '\n', String.ofList (line ++ v ++ Source.restOfLine (v' ++ post)),
        String.utf8Len (line ++ v)⟩ := by
    rw [List.append_assoc before]
    refine Source.locate?_of_split (by simp [hsource]) hbefore hlv (Or.inr ?_)
    intro hnil
    simp only [List.append_eq_nil_iff] at hnil
    exact hne (by simp [hnil])
  -- the lexeme is where the indentation is over
  obtain ⟨c, cs, hcs⟩ := List.exists_cons_of_ne_nil hne
  have hc : isIndent c = false := isIndent_of_isTokenChar (htok c (by simp [hcs]))
  have hwhole : line ++ v ++ Source.restOfLine (v' ++ post) =
      line ++ c :: (cs ++ Source.restOfLine post) := by
    rw [Source.restOfLine_append hv', List.append_assoc, ← List.append_assoc v, hcs,
      List.cons_append]
  rw [hlocate, Option.map_some]
  refine ⟨_, line.dropWhile isIndent, Text.trimEnd (Source.restOfLine post), rfl, ?_, ?_, ?_, ?_⟩
  · have hcount : ∀ {l : List Char}, '\n' ∉ l → l.count '\n' = 0 := List.count_eq_zero_of_not_mem
    rw [List.count_append, List.count_append, hcount hline, hcount hv]
    rfl
  · rw [text_ofLocation, String.toList_ofList, ← Source.restOfLine_append hlv]
    exact newline_not_mem_printed _
  · -- neither end that is trimmed reaches the lexeme
    have hspace : ∀ d ∈ v ++ v', Text.isWhiteSpace d = false := fun d hd =>
      isWhiteSpace_of_isTokenChar (htok d hd)
    rw [text_ofLocation, hwhole, dropWhile_append_cons hc, ← List.cons_append, ← hcs,
      ← List.append_assoc, Text.trimEnd_append hne hspace]
  · -- the caret moves by the characters of the indentation, and they are its bytes
    have hindent := utf8Len_takeWhile_isIndent line
    have hsplit : String.utf8Len (line.takeWhile isIndent ++ line.dropWhile isIndent) =
        String.utf8Len line := by rw [List.takeWhile_append_dropWhile]
    rw [String.utf8Len_append] at hsplit
    rw [caret_ofLocation, hwhole, takeWhile_append_cons hc, String.utf8Len_append,
      String.utf8Len_append]
    omega

/-! ## The two printed lines -/

theorem isDigit_of_mem_repr {n : Nat} {c : Char} (h : c ∈ (Nat.repr n).toList) : c.isDigit := by
  rw [Nat.toList_repr] at h
  exact Nat.isDigit_of_mem_toDigits (by decide) (by decide) h

theorem utf8ByteSize_repr (n : Nat) : (Nat.repr n).utf8ByteSize = (Nat.repr n).length := by
  rw [← String.utf8Len_toList, ← String.length_toList, Text.utf8Len_eq_length_iff]
  intro c hc
  have htok : isTokenChar c := by
    simp [isTokenChar, Lexeme.isAlphanum_of_isDigit (isDigit_of_mem_repr hc)]
  have := toNat_of_isTokenChar htok
  omega

namespace Excerpt

theorem render_eq (x : Excerpt) : x.render =
    gutter (Nat.repr x.line) ++ "\n" ++ x.sourceLine ++ "\n" ++ x.caretLine ++ "\n" := by
  simp [render, sourceLine, caretLine, String.append_assoc]

theorem toList_caretLine (x : Excerpt) : x.caretLine.toList =
    List.replicate ((Nat.repr x.line).length + 1) ' ' ++
      '|' :: ' ' :: List.replicate x.caret '-' ++ ['^'] := by
  simp [caretLine, gutter]

/-- Only these are printed before the caret. -/
theorem mem_padding {m n : Nat} {c : Char}
    (h : c ∈ List.replicate m ' ' ++ '|' :: ' ' :: List.replicate n '-') :
    c = ' ' ∨ c = '|' ∨ c = '-' := by
  simp only [List.mem_append, List.mem_cons, List.mem_replicate] at h
  rcases h with ⟨-, hspace⟩ | hbar | hspace | ⟨-, hdash⟩
  · exact Or.inl hspace
  · exact Or.inr (Or.inl hbar)
  · exact Or.inl hspace
  · exact Or.inr (Or.inr hdash)

theorem beforeCaret_eq (x : Excerpt) : x.beforeCaret =
    List.replicate ((Nat.repr x.line).length + 1) ' ' ++
      '|' :: ' ' :: List.replicate x.caret '-' := by
  rw [beforeCaret, toList_caretLine]
  refine Lexeme.takeWhile_append_of_head ?_ (by simp)
  intro c hc
  rcases mem_padding hc with rfl | rfl | rfl <;> decide

theorem length_beforeCaret (x : Excerpt) :
    x.beforeCaret.length = (Nat.repr x.line).length + 3 + x.caret := by
  rw [beforeCaret_eq]
  simp only [List.length_append, List.length_cons, List.length_replicate]
  omega

/-- Whatever the line is, what stands before the caret is ASCII. -/
theorem utf8Len_beforeCaret (x : Excerpt) :
    String.utf8Len x.beforeCaret = x.beforeCaret.length := by
  rw [Text.utf8Len_eq_length_iff, beforeCaret_eq]
  intro c hc
  rcases mem_padding hc with rfl | rfl | rfl <;> decide

theorem count_caretLine (x : Excerpt) : x.caretLine.toList.count '^' = 1 := by
  rw [toList_caretLine]
  simp [List.count_replicate]

theorem newline_not_mem_caretLine (x : Excerpt) : '\n' ∉ x.caretLine.toList := by
  rw [toList_caretLine]
  simp

theorem newline_not_mem_sourceLine {x : Excerpt} (h : '\n' ∉ x.text.toList) :
    '\n' ∉ x.sourceLine.toList := by
  have hdigits : '\n' ∉ (Nat.repr x.line).toList := fun hmem =>
    absurd (isDigit_of_mem_repr hmem) (by decide)
  have hbar : '\n' ∉ " | ".toList := by decide
  simp only [sourceLine, String.toList_append, List.mem_append, not_or]
  exact ⟨⟨hdigits, hbar⟩, h⟩

/-- A caret as many bytes into the text as its first part is long splits the printed line. -/
theorem splits_of_text {x : Excerpt} {front back : List Char}
    (htext : x.text = String.ofList (front ++ back)) (hcaret : x.caret = String.utf8Len front) :
    x.Splits (Nat.repr x.line ++ " | " ++ String.ofList front) (String.ofList back) := by
  have hbar : " | ".utf8ByteSize = 3 := by decide
  constructor
  · rw [sourceLine, htext, String.ofList_append, String.append_assoc, String.append_assoc,
      String.append_assoc]
  · rw [utf8Len_beforeCaret, length_beforeCaret, String.utf8ByteSize_append,
      String.utf8ByteSize_append, hbar, utf8ByteSize_repr, String.utf8ByteSize_ofList, hcaret]

theorem Splits.length_iff {x : Excerpt} {front back : String} (h : x.Splits front back) :
    x.beforeCaret.length = front.length ↔ ∀ c ∈ front.toList, c.toNat < 128 := by
  have hsize : String.utf8Len front.toList = x.beforeCaret.length := by
    rw [String.utf8Len_toList, h.2, utf8Len_beforeCaret]
  rw [← hsize, ← String.length_toList]
  exact Text.utf8Len_eq_length_iff _

end Excerpt

/-! ## A report of an expectation -/

/-- The source is cut in front of a token and behind it. -/
theorem exists_cut_of_mem {source : String} (h : source.utf8ByteSize < UInt32.size) {t : Token}
    (ht : t ∈ (tokenize source).tokens) :
    (∃ pre post, source.toList = pre ++ t.text.toList ++ post ∧
      String.utf8Len pre = t.span.start.toNat ∧
      String.utf8Len (pre ++ t.text.toList) = t.span.stop.toNat) ∧
    t.text.toList ≠ [] ∧ ∀ c ∈ t.text.toList, isTokenChar c := by
  obtain ⟨l, -, hchars, htokens⟩ := Layout.exists_of_source source
  have hk := Layout.utf8Len_pieces_lt hchars h
  have hmem : t ∈ Pieces.tokens 0 l.pieces := by rwa [← htokens, Array.mem_toList_iff]
  obtain ⟨pre, post, hcut, hstart, hstop⟩ := Pieces.cut hk l.last hmem
  have hspells := Pieces.shaped hmem
  rw [Nat.zero_add] at hstart hstop
  exact ⟨⟨pre, post, hchars.trans hcut, hstart, hstop⟩, hspells.ne_nil, hspells.isTokenChar⟩

namespace Excerpt

variable {source : String} {s : TokenStream} {kind : TokenKind}

/-- An excerpt of one line reports the error at the place where the source is cut. -/
theorem reports_of_cut {e : Error} {x : Excerpt} {before after : List Char}
    (hx : (Source.locate? source (String.utf8Len before)).map ofLocation = some x)
    (hsource : source.toList = before ++ after)
    (hposition : String.utf8Len before = e.position.toNat)
    (hline : x.line = 1 + before.count '\n') (htext : '\n' ∉ x.text.toList) :
    x.Reports source e where
  report file := by
    have hexcerpt : e.excerpt? source = some x := by rwa [Error.excerpt?, ← hposition]
    simp only [Error.render, hexcerpt, render_eq]
  lines := ⟨by simp [gutter], newline_not_mem_sourceLine htext, x.newline_not_mem_caretLine,
    x.count_caretLine⟩
  line := by
    refine ⟨String.ofList before, String.ofList after, ?_, ?_, ?_⟩
    · rw [← String.ofList_append, ← hsource, String.ofList_toList]
    · rw [String.utf8ByteSize_ofList, hposition]
    · rw [String.toList_ofList, hline]
  columns _ _ hsplits := hsplits.length_iff

/-- An error at the next token is shown below the first byte of it. -/
theorem exists_shows_of_peek (h : source.utf8ByteSize < UInt32.size)
    (hs : s.tokens = (tokenize source).tokens) {t : Token} (hpeek : s.peek = some t) :
    ∃ x : Excerpt, x.Shows source s kind ⟨.unexpectedToken t.text kind, t.span.start⟩ := by
  have hmem : t ∈ s.tokens := Array.mem_of_getElem? hpeek
  obtain ⟨⟨pre, post, hsource, hstart, -⟩, hne, htok⟩ := exists_cut_of_mem h (hs ▸ hmem)
  obtain ⟨x, front, back, hx, hline, htext, hcut, hcaret⟩ :=
    exists_of_cut hsource hne htok (List.nil_append _)
  rw [List.append_nil] at hx hline hcaret
  rw [List.append_assoc] at hsource hcut
  have hsplits := splits_of_text hcut hcaret
  rw [String.ofList_append, String.ofList_toList] at hsplits
  refine ⟨x, reports_of_cut hx hsource hstart hline htext, ?_, ?_, ?_⟩
  · intro u hu
    obtain rfl : t = u := Option.some.inj (hpeek.symm.trans hu)
    exact ⟨rfl, _, _, hsplits⟩
  · intro hnone
    simp [hpeek] at hnone
  · intro hnil
    simp [hnil] at hmem

/-- An error at the end is shown behind the last byte of the last token. -/
theorem exists_shows_of_back (h : source.utf8ByteSize < UInt32.size)
    (hs : s.tokens = (tokenize source).tokens) (hpeek : s.peek = none) {t : Token}
    (hback : s.tokens.back? = some t) :
    ∃ x : Excerpt, x.Shows source s kind ⟨.unexpectedEnd kind, s.endOffset⟩ := by
  have hmem : t ∈ s.tokens := Array.mem_of_back? hback
  obtain ⟨⟨pre, post, hsource, -, hstop⟩, hne, htok⟩ := exists_cut_of_mem h (hs ▸ hmem)
  obtain ⟨x, front, back, hx, hline, htext, hcut, hcaret⟩ :=
    exists_of_cut hsource hne htok (List.append_nil _)
  have hsplits := splits_of_text hcut hcaret
  rw [String.ofList_append, String.ofList_toList, ← String.append_assoc] at hsplits
  have hposition : String.utf8Len (pre ++ t.text.toList) = s.endOffset.toNat := by
    rw [hstop, TokenStream.endOffset, hback]
  refine ⟨x, reports_of_cut hx hsource hposition hline htext, ?_, ?_, ?_⟩
  · intro u hu
    simp [hpeek] at hu
  · intro _
    refine ⟨rfl, fun u hu => ?_⟩
    obtain rfl : t = u := Option.some.inj (hback.symm.trans hu)
    exact ⟨_, _, hsplits⟩
  · intro hnil
    simp [hnil] at hmem

/-- Where there are no tokens, the error is shown in front of the first line. -/
theorem exists_shows_of_nil (hnil : s.tokens = #[]) :
    ∃ x : Excerpt, x.Shows source s kind ⟨.unexpectedEnd kind, s.endOffset⟩ := by
  have hposition : String.utf8Len [] = s.endOffset.toNat := by
    simp [TokenStream.endOffset, hnil]
  have hlocate : Source.locate? source (String.utf8Len []) =
      some ⟨1, String.ofList (Source.restOfLine source.toList), 0⟩ :=
    Source.locate?_of_split rfl .nil List.not_mem_nil (Or.inl rfl)
  have htext := newline_not_mem_printed source.toList
  have hx : (Source.locate? source (String.utf8Len [])).map ofLocation =
      some (ofLocation ⟨1, String.ofList (Source.restOfLine source.toList), 0⟩) := by
    rw [hlocate, Option.map_some]
  refine ⟨_, reports_of_cut hx rfl hposition rfl ?_, ?_, ?_, ?_⟩
  · rwa [text_ofLocation, String.toList_ofList]
  · intro t ht
    simp [TokenStream.peek, hnil] at ht
  · intro _
    refine ⟨rfl, fun t ht => ?_⟩
    simp [hnil] at ht
  · intro _
    refine ⟨rfl, ?_⟩
    rw [utf8Len_beforeCaret, length_beforeCaret, caret_ofLocation, Nat.zero_sub]
    show (Nat.repr 1).length + 3 + 0 = "1 | ".utf8ByteSize
    decide

end Excerpt

/--
**The caret points at what was found instead.**

However the tokens of a source have been read before, an expectation that fails there has a
report with an excerpt, and the excerpt shows the token in the way, or the end of the last one.
-/
theorem exists_shows_of_expect {source : String} (h : source.utf8ByteSize < UInt32.size)
    (ops : List TokenStream.Op) (kind : TokenKind) (e : Error)
    (he : (((tokenize source).run ops).2.expect kind).1 = .error e) :
    ∃ x : Excerpt, x.Shows source ((tokenize source).run ops).2 kind e := by
  have hs := (tokenize source).tokens_run ops
  rcases TokenStream.expect_eq_error_iff.mp he with ⟨t, hpeek, -, rfl⟩ | ⟨hpeek, rfl⟩
  · exact Excerpt.exists_shows_of_peek h hs hpeek
  · cases hback : ((tokenize source).run ops).2.tokens.back? with
    | some t => exact Excerpt.exists_shows_of_back h hs hpeek hback
    | none => exact Excerpt.exists_shows_of_nil (Array.back?_eq_none_iff.mp hback)

/-- Bytes and characters disagree on this column. -/
theorem exists_shows_of_expect_semicolon :
    "x\n  é = 3".utf8ByteSize < UInt32.size ∧
      (((tokenize "x\n  é = 3").run [.read]).2.expect .semicolon).1 =
        .error ⟨.unexpectedToken "=" .semicolon, 7⟩ ∧
      ∃ x : Excerpt, x.Shows "x\n  é = 3" ((tokenize "x\n  é = 3").run [.read]).2 .semicolon
        ⟨.unexpectedToken "=" .semicolon, 7⟩ := by
  have hsize : "x\n  é = 3".utf8ByteSize < UInt32.size := by decide +kernel
  have herror : (((tokenize "x\n  é = 3").run [.read]).2.expect .semicolon).1 =
      .error ⟨.unexpectedToken "=" .semicolon, 7⟩ := by decide +kernel
  exact ⟨hsize, herror, exists_shows_of_expect hsize [.read] .semicolon _ herror⟩

end MiniLexer
