import MiniLexer.Token.Kind

/-!
# Tokens

A token is a lexeme that has been given a kind. It remembers which bytes of the source it
was cut from, as a half-open span whose two ends are 32-bit words: each is the true offset
modulo 2³², taken separately, so spans are exact in every source below that size.
-/

namespace MiniLexer

/-- A half-open range of bytes. -/
structure Span where
  /-- Offset of the first byte. -/
  start : UInt32
  /-- Offset just past the last byte. -/
  stop : UInt32
  deriving DecidableEq, Repr

/-- The bytes a text occupies when it begins at the given offset. -/
def Span.ofText (text : String) (start : Nat) : Span where
  start := start.toUInt32
  stop := (start + text.utf8ByteSize).toUInt32

theorem Span.toNat_start_ofText (text : String) (start : Nat) :
    (Span.ofText text start).start.toNat = start % UInt32.size := by
  simp [Span.ofText]

theorem Span.toNat_stop_ofText (text : String) (start : Nat) :
    (Span.ofText text start).stop.toNat = (start + text.utf8ByteSize) % UInt32.size := by
  simp [Span.ofText]

/-- A classified lexeme. -/
structure Token where
  kind : TokenKind
  /-- The characters of the lexeme. -/
  text : String
  /-- The bytes of the source that it occupies. -/
  span : Span
  deriving DecidableEq, Repr

namespace Token

/-- The token of a lexeme that begins at the given offset. -/
def ofText (kind : TokenKind) (text : String) (start : Nat) : Token where
  kind := kind
  text := text
  span := Span.ofText text start

/-- A line of a token listing: the text, two tabs, the kind. -/
def row (t : Token) : String := t.text ++ "\t\t" ++ t.kind.name

/-- Whether the token is of one of the kinds. -/
def isOneOf (t : Token) (kinds : List TokenKind) : Bool := kinds.contains t.kind

end Token

end MiniLexer
