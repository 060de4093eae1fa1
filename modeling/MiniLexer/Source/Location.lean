/-!
# Lines and columns

Finding the line that a byte offset lies on. A line keeps the newline that ends it, so the
lines of a text, one after another, are the text (`flatten_lines`). The end of a text is a
position too, and it belongs to the last line, also when that line ends in a newline.
-/

namespace MiniLexer.Source

/-- Puts a character in front of a text that is already cut into lines. -/
def consLine (c : Char) : List (List Char) → List (List Char)
  | [] => [[c]]
  | line :: rest => if c = '\n' then [c] :: line :: rest else (c :: line) :: rest

/-- Cuts a text after every newline. The empty text has no lines. -/
def lines (cs : List Char) : List (List Char) := cs.foldr consLine []

/-- Putting a character in front adds just that character. -/
theorem flatten_consLine (c : Char) (ls : List (List Char)) :
    (consLine c ls).flatten = c :: ls.flatten := by
  cases ls with
  | nil => rfl
  | cons line rest =>
      simp only [consLine]
      split <;> simp

/-- Cutting a text into lines loses nothing. -/
@[simp] theorem flatten_lines (cs : List Char) : (lines cs).flatten = cs := by
  induction cs with
  | nil => rfl
  | cons c cs ih =>
      show (consLine c (lines cs)).flatten = c :: cs
      rw [flatten_consLine, ih]

/-- A place in a text, by line. -/
structure Location where
  /-- Number of the line, counted from 1. -/
  line : Nat
  /-- The line with its newline. -/
  text : String
  /-- Bytes of the line before the place. -/
  column : Nat
  deriving DecidableEq, Repr

/-- The place `position` bytes after the beginning of the first of the lines, which has the
given number. Only the last line takes a position beyond its bytes. -/
def locate (line position : Nat) : List String → Location
  | [] => ⟨line, "", position⟩
  | [text] => ⟨line, text, position⟩
  | text :: next :: rest =>
    if position < text.utf8ByteSize then ⟨line, text, position⟩
    else locate (line + 1) (position - text.utf8ByteSize) (next :: rest)

/-- The place of a byte in a source; beyond the end of the source there is none. -/
def locate? (source : String) (position : Nat) : Option Location :=
  if position ≤ source.utf8ByteSize then
    some (locate 1 position ((lines source.toList).map String.ofList))
  else none

end MiniLexer.Source
