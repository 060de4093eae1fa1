import MiniLexer.Error
import MiniLexer.Source.Location

/-!
# Diagnostics

How an error is shown to the author of a script: a headline, the name of the file, and an
excerpt, which is the line the error stands on with a caret below the place.

    Error: UnexpectedToken (Unexpected token: `>=`, expected Assignment)
    -> script.lex
       |
    20 | age >= 45;
       | ----^

The line loses its indentation and the white space at its end. The caret moves left with
the text; an error inside the indentation is shown at the first printed column. An error
beyond the end of the source has no excerpt.

White space is what Unicode calls by that name, 25 characters. The blanks that separate lexemes
are fewer; they are a character class of the scanner.
-/

namespace MiniLexer

/-! ## White space -/

namespace Text

/-- The characters with the property `White_Space`. -/
def isWhiteSpace (c : Char) : Bool :=
  let n := c.toNat
  (0x09 ≤ n && n ≤ 0x0D) || n = 0x20 || n = 0x85 || n = 0xA0 || n = 0x1680 ||
    (0x2000 ≤ n && n ≤ 0x200A) || n = 0x2028 || n = 0x2029 || n = 0x202F || n = 0x205F ||
    n = 0x3000

/-- Drops white space from the end. -/
def trimEnd (cs : List Char) : List Char :=
  (cs.reverse.dropWhile isWhiteSpace).reverse

/-- Every character that core takes for white space is white space here. -/
theorem isWhiteSpace_of_isWhitespace {c : Char} (h : c.isWhitespace) : isWhiteSpace c := by
  simp only [Char.isWhitespace, Bool.or_eq_true, decide_eq_true_eq] at h
  rcases h with ((h | h) | h) | h <;> subst h <;> decide

end Text

/-! ## Excerpts -/

/-- The characters that indent a line. -/
def isIndent (c : Char) : Bool := c = ' ' || c = '\t'

/-- A line of the source as it is shown, and the column the caret goes below. -/
structure Excerpt where
  /-- Number of the line. -/
  line : Nat
  /-- The line as it is printed. -/
  text : String
  /-- How many bytes the caret stands from the beginning of the printed line. -/
  caret : Nat
  deriving DecidableEq, Repr

namespace Excerpt

/-- The excerpt that points at a place. -/
def ofLocation (l : Source.Location) : Excerpt where
  line := l.line
  text := String.ofList (Text.trimEnd (l.text.toList.dropWhile isIndent))
  caret := l.column - (l.text.toList.takeWhile isIndent).length

/-- The empty gutter of a line number: its bar stands one column past the number's end. -/
def gutter (number : String) : String :=
  String.ofList (List.replicate (number.length + 1) ' ') ++ "|"

/-- Three lines: an empty one, the text beside its number, the caret. -/
def render (e : Excerpt) : String :=
  let number := Nat.repr e.line
  gutter number ++ "\n" ++
    number ++ " | " ++ e.text ++ "\n" ++
    gutter number ++ " " ++ String.ofList (List.replicate e.caret '-') ++ "^\n"

end Excerpt

namespace Error

/-- The excerpt of a source that an error points into. -/
def excerpt? (e : Error) (source : String) : Option Excerpt :=
  (Source.locate? source e.position.toNat).map Excerpt.ofLocation

/-- The whole report of an error in a file with the given source. -/
def render (e : Error) (file source : String) : String :=
  let header := e.cause.headline ++ "-> " ++ file ++ "\n"
  match e.excerpt? source with
  | some excerpt => header ++ excerpt.render
  | none => header

end Error

end MiniLexer
