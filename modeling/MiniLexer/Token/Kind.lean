/-!
# Token kinds

The kinds of token in the language. Six of them are reserved: the language has names for
them, and no text is scanned into one yet.
-/

namespace MiniLexer

/-- What a token is. -/
inductive TokenKind where
  | plus
  | minus
  | star
  | slash
  | greaterEqual
  | greater
  /-- Reserved. -/
  | equal
  /-- Reserved. -/
  | lessEqual
  /-- Reserved. -/
  | less
  | semicolon
  | leftParen
  | rightParen
  | assignment
  /-- Reserved. -/
  | keywordIf
  /-- Reserved. -/
  | keywordElse
  | identifier
  | intLiteral
  /-- Reserved. -/
  | stringLiteral
  | keywordInt
  deriving DecidableEq, Repr

namespace TokenKind

/-- The name a kind is printed by. -/
def name : TokenKind → String
  | plus => "Plus"
  | minus => "Minus"
  | star => "Star"
  | slash => "Slash"
  | greaterEqual => "GE"
  | greater => "GT"
  | equal => "EQ"
  | lessEqual => "LE"
  | less => "LT"
  | semicolon => "SemiColon"
  | leftParen => "LeftParen"
  | rightParen => "RightParen"
  | assignment => "Assignment"
  | keywordIf => "If"
  | keywordElse => "Else"
  | identifier => "Identifier"
  | intLiteral => "IntLiteral"
  | stringLiteral => "StringLiteral"
  | keywordInt => "Int"

/-- Every kind, once. -/
def all : List TokenKind :=
  [plus, minus, star, slash, greaterEqual, greater, equal, lessEqual, less, semicolon,
   leftParen, rightParen, assignment, keywordIf, keywordElse, identifier, intLiteral,
   stringLiteral, keywordInt]

theorem mem_all (k : TokenKind) : k ∈ all := by cases k <;> decide

/-- The kind with the given printed name. -/
def ofName? (s : String) : Option TokenKind := all.find? (·.name == s)

/-- Printed names tell kinds apart, so a name reads back as its kind. -/
theorem ofName?_name (k : TokenKind) : ofName? k.name = some k := by cases k <;> decide

theorem name_injective {j k : TokenKind} (h : j.name = k.name) : j = k :=
  Option.some.inj (by rw [← ofName?_name j, ← ofName?_name k, h])

end TokenKind

end MiniLexer
