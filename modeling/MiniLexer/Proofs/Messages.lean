import MiniLexer.Error

/-!
# Messages tell errors apart

A message is a template with a quoted text in it, and it is read from the left. The opening of the
template says which cause it is (`Cause.opening_eq_of_append`). Then comes the quoted text, which
says itself where it ends (`Text.quoteChars_append_inj`), so the words that follow it can be told
from words inside. What is left is a name or a text that goes on to the end.

A quoted text can be read because each character in it can. A backslash and the letter behind it
stand for one character, a `u` announces a code point that a brace ends, and any other character
stands for itself (`Text.readChar?`). A quote is never the first thing that a character is written
as, so the first one that is met is the one that ends the text.
-/

namespace MiniLexer

namespace Text

/-- The value of a lower-case hexadecimal digit. -/
def hexDigit (d : Char) : Nat := if d.isDigit then d.toNat - 48 else d.toNat - 87

/-- The number that is written with these hexadecimal digits. -/
def hexNumber (ds : List Char) : Nat := ds.foldl (fun n d => 16 * n + hexDigit d) 0

/-- The character that a backslash and a letter stand for. Most stand for the letter. -/
def unescape (letter : Char) : Char :=
  if letter = '0' then '\x00'
  else if letter = 't' then '\t'
  else if letter = 'r' then '\r'
  else if letter = 'n' then '\n'
  else letter

/-- Reads what follows a backslash: the character it stands for, and the text behind it. -/
def readEscape? : List Char → Option (Char × List Char)
  | [] => none
  | c :: cs =>
    if c = 'u' then
      some (Char.ofNat (hexNumber (cs.tail.takeWhile (· ≠ '\x7d'))),
        (cs.dropWhile (· ≠ '\x7d')).tail)
    else some (unescape c, cs)

/-- Reads the first character that a text between quotes stands for. -/
def readChar? : List Char → Option (Char × List Char)
  | [] => none
  | c :: cs => if c = '\\' then readEscape? cs else some (c, cs)

/-! ## Code points -/

theorem hexDigit_digitChar {n : Nat} (h : n < 16) : hexDigit n.digitChar = n := by
  have hall : ∀ d, d < 16 → hexDigit (Nat.digitChar d) = d := by decide
  exact hall n h

theorem digitChar_ne_brace {n : Nat} (h : n < 16) : n.digitChar ≠ '\x7d' := by
  have hall : ∀ d, d < 16 → Nat.digitChar d ≠ '\x7d' := by decide
  exact hall n h

/-- A number is read back from its digits, none of which is a brace. -/
theorem hexNumber_toDigits (n : Nat) :
    hexNumber (Nat.toDigits 16 n) = n ∧ ∀ d ∈ Nat.toDigits 16 n, d ≠ '\x7d' := by
  induction n using Nat.strongRecOn with
  | ind n ih =>
    rw [Nat.toDigits_eq_if (by decide)]
    split
    · rename_i hlt
      refine ⟨?_, ?_⟩
      · show 16 * 0 + hexDigit n.digitChar = n
        rw [hexDigit_digitChar hlt, Nat.mul_zero, Nat.zero_add]
      · intro d hd
        rw [List.mem_singleton.mp hd]
        exact digitChar_ne_brace hlt
    · -- the digits of the quotient, and the remainder
      obtain ⟨hnumber, hbrace⟩ := ih (n / 16) (by omega)
      have hmod : n % 16 < 16 := Nat.mod_lt n (by decide)
      refine ⟨?_, ?_⟩
      · rw [hexNumber, List.foldl_append, ← hexNumber, hnumber]
        show 16 * (n / 16) + hexDigit (n % 16).digitChar = n
        rw [hexDigit_digitChar hmod]
        omega
      · intro d hd
        rcases List.mem_append.mp hd with hd | hd
        · exact hbrace d hd
        · rw [List.mem_singleton.mp hd]
          exact digitChar_ne_brace hmod

/-- A code point between braces is read back as its character. -/
theorem readChar?_codePointEscape (c : Char) (rest : List Char) :
    readChar? (codePointEscape c ++ rest) = some (c, rest) := by
  obtain ⟨hnumber, hbrace⟩ := hexNumber_toDigits c.toNat
  have hdigits : ∀ d ∈ Nat.toDigits 16 c.toNat, decide (d ≠ '\x7d') = true :=
    fun d hd => decide_eq_true (hbrace d hd)
  have hescape : codePointEscape c ++ rest =
      '\\' :: 'u' :: '\x7b' :: (Nat.toDigits 16 c.toNat ++ '\x7d' :: rest) := by
    simp [codePointEscape]
  have htake : (Nat.toDigits 16 c.toNat ++ '\x7d' :: rest).takeWhile (· ≠ '\x7d') =
      Nat.toDigits 16 c.toNat := by
    rw [List.takeWhile_append_of_pos hdigits]
    simp
  have hdrop : (Nat.toDigits 16 c.toNat ++ '\x7d' :: rest).dropWhile (· ≠ '\x7d') =
      '\x7d' :: rest := by
    rw [List.dropWhile_append_of_pos hdigits]
    simp
  rw [hescape, readChar?, if_pos rfl, readEscape?, if_pos rfl, List.tail_cons, htake, hnumber,
    Char.ofNat_toNat, List.dropWhile_cons_of_pos (by decide), hdrop, List.tail_cons]

/-! ## Quoted texts -/

/-- **A character between quotes is read back from what it is written as.** -/
theorem readChar?_escapeChar (c : Char) (rest : List Char) :
    readChar? (escapeChar '"' c ++ rest) = some (c, rest) := by
  by_cases hzero : c = '\x00'
  · subst hzero
    rfl
  by_cases htab : c = '\t'
  · subst htab
    rfl
  by_cases hreturn : c = '\r'
  · subst hreturn
    rfl
  by_cases hnewline : c = '\n'
  · subst hnewline
    rfl
  rw [escapeChar, if_neg hzero, if_neg htab, if_neg hreturn, if_neg hnewline]
  split
  · -- the quote and the backslash
    rename_i hself
    simp only [Bool.or_eq_true, decide_eq_true_eq] at hself
    rcases hself with rfl | rfl <;> rfl
  · rename_i hself
    simp only [Bool.or_eq_true, decide_eq_true_eq, not_or] at hself
    split
    · exact readChar?_codePointEscape c rest
    · rw [List.singleton_append, readChar?, if_neg hself.2]

/-- What a character is written as does not begin with a quote. -/
theorem escapeChar_append_ne (c : Char) (rest rest' : List Char) :
    escapeChar '"' c ++ rest ≠ '"' :: rest' := by
  intro h
  have hread := readChar?_escapeChar c rest
  have hquote : readChar? ('"' :: rest') = some ('"', rest') := rfl
  rw [h, hquote] at hread
  obtain ⟨rfl, rfl⟩ := Prod.mk.inj (Option.some.inj hread)
  -- it would be the quote, which is written with a backslash
  exact absurd (List.cons.inj h).1 (by decide)

/-- **A quoted text says itself where it ends.** -/
theorem quoteChars_append_inj {cs ds rest rest' : List Char}
    (h : quoteChars '"' cs ++ rest = quoteChars '"' ds ++ rest') : cs = ds ∧ rest = rest' := by
  have hbody : cs.flatMap (escapeChar '"') ++ '"' :: rest =
      ds.flatMap (escapeChar '"') ++ '"' :: rest' := by
    simpa [quoteChars] using h
  clear h
  induction cs generalizing ds with
  | nil =>
      cases ds with
      | nil => exact ⟨rfl, (List.cons.inj hbody).2⟩
      | cons d ds =>
          rw [List.flatMap_cons, List.append_assoc] at hbody
          exact absurd hbody.symm (escapeChar_append_ne d _ _)
  | cons c cs ih =>
      rw [List.flatMap_cons, List.append_assoc] at hbody
      cases ds with
      | nil => exact absurd hbody (escapeChar_append_ne c _ _)
      | cons d ds =>
          rw [List.flatMap_cons, List.append_assoc] at hbody
          have hread := readChar?_escapeChar c (cs.flatMap (escapeChar '"') ++ '"' :: rest)
          rw [hbody, readChar?_escapeChar] at hread
          obtain ⟨rfl, hrest⟩ := Prod.mk.inj (Option.some.inj hread)
          obtain ⟨rfl, hend⟩ := ih hrest.symm
          exact ⟨rfl, hend⟩

theorem quoteString_append_inj {s t rest rest' : String} :
    quoteString s ++ rest = quoteString t ++ rest' ↔ s = t ∧ rest = rest' := by
  constructor
  · intro h
    have hchars := congrArg String.toList h
    rw [String.toList_append, String.toList_append, quoteString, quoteString,
      String.toList_ofList, String.toList_ofList] at hchars
    obtain ⟨htext, hrest⟩ := quoteChars_append_inj hchars
    exact ⟨String.toList_inj.mp htext, String.toList_inj.mp hrest⟩
  · rintro ⟨rfl, rfl⟩
    rfl

end Text

namespace Cause

/-- The words that a message opens with. -/
def opening : Cause → String
  | unexpectedToken .. => "unexpected token "
  | unexpectedEnd .. => "unexpected end of stream: expected "
  | sourceUnreadable .. => "cannot read "

/-- What a message says after them. -/
def particulars : Cause → String
  | unexpectedToken token expected =>
    Text.quoteString token ++ (": expected " ++ expected.name)
  | unexpectedEnd expected => expected.name
  | sourceUnreadable path reason => Text.quoteString path ++ (": " ++ reason)

def openings : List String :=
  ["unexpected token ", "unexpected end of stream: expected ", "cannot read "]

theorem message_eq (c : Cause) : c.message = c.opening ++ c.particulars := by
  cases c with
  | unexpectedToken token expected =>
      show "unexpected token " ++ Text.quoteString token ++ ": expected " ++ expected.name =
        "unexpected token " ++ (Text.quoteString token ++ (": expected " ++ expected.name))
      rw [String.append_assoc, String.append_assoc]
  | unexpectedEnd expected => rfl
  | sourceUnreadable path reason =>
      show "cannot read " ++ Text.quoteString path ++ ": " ++ reason =
        "cannot read " ++ (Text.quoteString path ++ (": " ++ reason))
      rw [String.append_assoc, String.append_assoc]

theorem opening_mem (c : Cause) : c.opening ∈ openings := by
  cases c <;> simp [opening, openings]

/-- No opening is the beginning of another. -/
theorem eq_of_mem_openings : ∀ p ∈ openings, ∀ q ∈ openings, p.toList <+: q.toList → p = q := by
  decide

/-- The opening can be told from what follows it. -/
theorem opening_eq_of_append {a b : Cause} {rest rest' : String}
    (h : a.opening ++ rest = b.opening ++ rest') : a.opening = b.opening := by
  have hchars := congrArg String.toList h
  rw [String.toList_append, String.toList_append] at hchars
  rcases List.prefix_or_prefix_of_prefix ⟨rest.toList, hchars⟩
    (List.prefix_append b.opening.toList rest'.toList) with hp | hp
  · exact eq_of_mem_openings _ a.opening_mem _ b.opening_mem hp
  · exact (eq_of_mem_openings _ b.opening_mem _ a.opening_mem hp).symm

theorem message_inj {a b : Cause} (h : a.message = b.message) : a = b := by
  rw [message_eq, message_eq] at h
  have hopening := opening_eq_of_append h
  rw [hopening, String.append_right_inj] at h
  cases a with
  | unexpectedToken token expected =>
      cases b with
      | unexpectedToken token' expected' =>
          obtain ⟨rfl, hname⟩ := Text.quoteString_append_inj.mp h
          rw [TokenKind.name_injective ((String.append_right_inj _).mp hname)]
      | _ => simp [opening] at hopening
  | unexpectedEnd expected =>
      cases b with
      | unexpectedEnd expected' => rw [TokenKind.name_injective h]
      | _ => simp [opening] at hopening
  | sourceUnreadable path reason =>
      cases b with
      | sourceUnreadable path' reason' =>
          obtain ⟨rfl, hreason⟩ := Text.quoteString_append_inj.mp h
          rw [(String.append_right_inj _).mp hreason]
      | _ => simp [opening] at hopening

/--
**Messages are alike for equal causes only.**

That is so whatever the texts from outside hold, for a quoted text is not the beginning of another
one: what stands behind two quoted texts can be the same only where the texts are.
-/
theorem message_eq_message_iff :
    (∀ a b : Cause, a.message = b.message ↔ a = b) ∧
      ∀ s t rest rest' : String,
        Text.quoteString s ++ rest = Text.quoteString t ++ rest' ↔ s = t ∧ rest = rest' :=
  ⟨fun _ _ => ⟨message_inj, congrArg message⟩, fun _ _ _ _ => Text.quoteString_append_inj⟩

end Cause

end MiniLexer
