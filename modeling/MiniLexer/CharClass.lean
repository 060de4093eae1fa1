/-!
# Character classes

Apart from the operators and the letters of its keyword, the scanner sees only the class of
a character. Letters and digits are those of ASCII. Just three characters are blank; a
carriage return, a form feed and the spaces of other scripts are not, and neither is a
letter outside ASCII a letter: all of these are `other`.
-/

namespace MiniLexer

/-- What the scanner sees of a character that is no operator. -/
inductive CharClass where
  /-- An ASCII letter of either case. -/
  | letter
  /-- An ASCII digit. -/
  | digit
  /-- Space, tab or newline. -/
  | blank
  /-- Everything else, operators included. -/
  | other
  deriving DecidableEq, Repr

namespace CharClass

/-- The class of a character. -/
def ofChar (c : Char) : CharClass :=
  if c.isAlpha then letter
  else if c.isDigit then digit
  else if c = ' ' || c = '\t' || c = '\n' then blank
  else other

end CharClass

/-- Letters and digits: the characters that continue a word. -/
def isWordChar (c : Char) : Bool :=
  match CharClass.ofChar c with
  | .letter | .digit => true
  | .blank | .other => false

end MiniLexer
