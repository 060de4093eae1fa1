import MiniLexer.Text.CodePoints

/-!
# Quoted text

A text is shown between quotes in such a way that the quoted form says exactly which
characters it holds. The quote and the backslash take a backslash, four control characters
have a letter of their own, and whatever would not be seen, or would melt into the
character before it, is given by its code point. Strings are quoted with `"` and single
characters with `'`; each escapes its own quote and leaves the other alone.
-/

namespace MiniLexer.Text

/-- A code point between braces: lower-case hexadecimal, no padding. -/
def codePointEscape (c : Char) : List Char :=
  '\\' :: 'u' :: '\x7b' :: Nat.toDigits 16 c.toNat ++ ['\x7d']

/-- One character as it stands between two quotes. -/
def escapeChar (quote c : Char) : List Char :=
  if c = '\x00' then ['\\', '0']
  else if c = '\t' then ['\\', 't']
  else if c = '\r' then ['\\', 'r']
  else if c = '\n' then ['\\', 'n']
  else if c = quote || c = '\\' then ['\\', c]
  else if isCombiningMark c || isUnprintable c then codePointEscape c
  else [c]

/-- Characters between quotes. -/
def quoteChars (quote : Char) (cs : List Char) : List Char :=
  quote :: cs.flatMap (escapeChar quote) ++ [quote]

/-- A string in double quotes. -/
def quoteString (s : String) : String := String.ofList (quoteChars '"' s.toList)

/-- A character in single quotes. -/
def quoteChar (c : Char) : String := String.ofList (quoteChars '\'' [c])

end MiniLexer.Text
