import Mathlib.Data.List.TakeWhile
import MiniLexer.Text.Bytes
import MiniLexer.Token.Basic

/-!
# Lexemes

What the lexemes of the language are, without an automaton and without its classes of
characters. A word is a letter and the longest run of letters and digits after it, a number
is the longest run of digits, `>=` is one lexeme, and every other operator is one character.
`lexemes` cuts a text by taking the longest lexeme at its head and dropping a character where
none begins.

Two lexemes may stand side by side unless the first could swallow the head of the second
(`swallows`).
-/

namespace MiniLexer

/-- The kind of an operator or delimiter of one character. -/
def TokenKind.ofOperator? : Char → Option TokenKind
  | '+' => some .plus
  | '-' => some .minus
  | '*' => some .star
  | '/' => some .slash
  | ';' => some .semicolon
  | '(' => some .leftParen
  | ')' => some .rightParen
  | '=' => some .assignment
  | '>' => some .greater
  | _ => none

/-- A word is the keyword or an identifier. -/
def TokenKind.ofWord (w : List Char) : TokenKind :=
  if w = ['i', 'n', 't'] then .keywordInt else .identifier

namespace Lexeme

/-- A character that begins or continues some lexeme. -/
def isTokenChar (c : Char) : Bool := c.isAlphanum || (TokenKind.ofOperator? c).isSome

/-- The longest lexeme at the head of a text: its kind, its characters but the first, and
the rest of the text. -/
def longest? (c : Char) (cs : List Char) : Option (TokenKind × List Char × List Char) :=
  if c.isAlpha then
    let run := cs.takeWhile Char.isAlphanum
    some (.ofWord (c :: run), run, cs.dropWhile Char.isAlphanum)
  else if c.isDigit then
    some (.intLiteral, cs.takeWhile Char.isDigit, cs.dropWhile Char.isDigit)
  else
    match c, cs with
    | '>', '=' :: rest => some (.greaterEqual, ['='], rest)
    | _, _ => (TokenKind.ofOperator? c).map fun kind => (kind, [], cs)

/-- A lexeme takes at least its first character. -/
theorem length_le_of_longest? {c : Char} {cs tail rest : List Char} {kind : TokenKind}
    (h : longest? c cs = some (kind, tail, rest)) : rest.length ≤ cs.length := by
  unfold longest? at h
  split at h
  · obtain ⟨_, _, rfl⟩ := by simpa using h
    exact List.length_dropWhile_le _ _
  · split at h
    · obtain ⟨_, _, rfl⟩ := by simpa using h
      exact List.length_dropWhile_le _ _
    · split at h
      · obtain ⟨_, _, rfl⟩ := by simpa using h
        simp
      · obtain ⟨_, _, _, _, rfl⟩ := by simpa using h
        exact Nat.le_refl _

/-- The tokens of a text that begins at the given offset. -/
def lexemes (offset : Nat) : List Char → List Token
  | [] => []
  | c :: cs =>
    match _h : longest? c cs with
    | some (kind, tail, rest) =>
      .ofText kind (String.ofList (c :: tail)) offset ::
        lexemes (offset + String.utf8Len (c :: tail)) rest
    | none => lexemes (offset + c.utf8Size) cs
termination_by cs => cs.length
decreasing_by
  · have hle := length_le_of_longest? _h
    simp only [List.length_cons]
    omega
  · simp

/-- The kind that a text has as a lexeme, if it is one. -/
def kind? (w : List Char) : Option TokenKind :=
  match w with
  | [] => none
  | c :: cs =>
    match longest? c cs with
    | some (kind, _, []) => some kind
    | _ => none

/-- Whether a character right after a lexeme would become part of it. -/
def continues (w : List Char) (c : Char) : Bool :=
  match w with
  | [] => false
  | d :: _ =>
    if d.isAlpha then c.isAlphanum
    else if d.isDigit then c.isDigit
    else w = ['>'] && c = '='

/-- Whether the first of two lexemes, with nothing between them, takes characters of the
second. -/
def swallows (v w : List Char) : Bool :=
  match w with
  | [] => false
  | c :: _ => continues v c

end Lexeme

end MiniLexer
