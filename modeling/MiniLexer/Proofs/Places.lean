import MiniLexer.Proofs.Finality

/-!
# Where a token stands

A span is a place modulo 2³², so in a long source it does not say where its token was found. The
text in front of the token does. A token stands behind `before` if the tokens ahead of it are
those of `before`, no more and no fewer (`Token.Stands`), and every token of a source stands
somewhere (`exists_stands`).

So a place is a cut that goes through no token. There are two ways to know one. Two characters
that no lexeme holds side by side are a place for a cut, whatever is around them
(`Lexeme.lexemes_append_of_bonds`). And a text whose tokens are all found again in a longer text
is cut off there from the rest of it (`Lexeme.lexemes_append_of_prefix`).
-/

namespace MiniLexer

open Lexeme (Spells Stops continues lexemes isAlphanum_of_isDigit isAlphanum_of_isAlpha)

/-- The tokens of a text. -/
def tokensOf (cs : List Char) : List Token := (tokenize (String.ofList cs)).tokens.toList

/-- In the text `before ++ rest` the token begins where `rest` does. -/
structure Token.Stands (t : Token) (before rest : List Char) : Prop where
  /-- Its text is what `rest` begins with. -/
  text : t.text.toList <+: rest
  /-- Its span is that of the true offset. -/
  span : t.span = .ofText t.text (String.utf8Len before)
  /-- In front of it there are the tokens of `before`. -/
  found : ∃ later, tokensOf (before ++ rest) = tokensOf before ++ t :: later

/-- Operators and delimiters, with the reserved ones. The other kinds are those of words, numbers
and strings. -/
def TokenKind.isOperator : TokenKind → Bool
  | .plus | .minus | .star | .slash | .greaterEqual | .greater | .equal | .lessEqual | .less
  | .semicolon | .leftParen | .rightParen | .assignment => true
  | .keywordIf | .keywordElse | .identifier | .intLiteral | .stringLiteral | .keywordInt => false

theorem TokenKind.isOperator_of_ofOperator? {c : Char} {kind : TokenKind}
    (h : ofOperator? c = some kind) : kind.isOperator := by
  unfold ofOperator? at h
  split at h
  case h_10 => simp at h
  all_goals
    obtain rfl := Option.some.inj h
    rfl

/-- Some lexeme holds the two characters side by side. -/
def Lexeme.bonds (c d : Char) : Bool := (c.isAlphanum && d.isAlphanum) || (c = '>' && d = '=')

theorem tokensOf_eq (cs : List Char) : tokensOf cs = lexemes 0 cs := tokens_tokenize_ofList cs

theorem tokensOf_toList (source : String) :
    tokensOf source.toList = (tokenize source).tokens.toList := by
  rw [tokensOf, String.ofList_toList]

/-! ## Between which characters a text is cut -/

theorem Lexeme.IsWord.isAlphanum {w : List Char} (h : Lexeme.IsWord w) :
    ∀ c ∈ w, c.isAlphanum := by
  intro c hc
  cases w with
  | nil => simp at hc
  | cons d ds =>
      rcases List.mem_cons.mp hc with rfl | hc
      · exact isAlphanum_of_isAlpha h.1
      · exact h.2 c hc

/-- What continues a lexeme bonds with its last character. -/
theorem Lexeme.Spells.bonds_of_continues {kind : TokenKind} {w : List Char} {d : Char}
    (h : Spells kind w) (hd : continues w d) : ∀ c ∈ w.getLast?, Lexeme.bonds c d := by
  intro c hc
  have hmem := List.mem_of_getLast? hc
  unfold Lexeme.bonds
  cases h with
  | word hw =>
      rw [hw.continues] at hd
      simp [hw.isAlphanum c hmem, hd]
  | number hw =>
      rw [hw.continues] at hd
      simp [isAlphanum_of_isDigit (hw.2 c hmem), isAlphanum_of_isDigit hd]
  | greaterEqual => simp [continues] at hd
  | operator hop =>
      rw [Lexeme.continues_operator hop] at hd
      obtain rfl := List.mem_singleton.mp hmem
      simp only [Bool.and_eq_true, decide_eq_true_eq] at hd
      simp [hd.1, hd.2]

/-- A separated layout is found before any text that does not continue its last lexeme. -/
theorem Layout.lexemes_append_of_stops {l : Layout} (h : l.Separated) {rest : List Char}
    (hlast : ∀ p ∈ l.pieces.getLast?, l.last.chars = [] → Stops p.lexeme.chars rest) (k : Nat) :
    lexemes k (l.chars ++ rest) =
      lexemes k l.chars ++ lexemes (k + String.utf8Len l.chars) rest := by
  have hstops : ∀ p ∈ l.pieces.getLast?, Stops p.lexeme.chars (l.last.chars ++ rest) := by
    intro p hp
    exact (stops_gap _ _ _).mpr (hlast p hp)
  rw [(l.lexemes_chars_iff k).mpr h, chars, List.append_assoc, Pieces.lexemes_append h hstops,
    Lexeme.lexemes_skip_all l.last.idle, String.utf8Len_append, Nat.add_assoc]
  rfl

/-- **A text is cut between two characters that do not bond.** -/
theorem Lexeme.lexemes_append_of_bonds {as bs : List Char}
    (h : ∀ c ∈ as.getLast?, ∀ d ∈ bs.head?, bonds c d = false) (k : Nat) :
    lexemes k (as ++ bs) = lexemes k as ++ lexemes (k + String.utf8Len as) bs := by
  obtain ⟨l, hsep, rfl⟩ := Layout.exists_separated as
  refine Layout.lexemes_append_of_stops hsep ?_ k
  intro p hp hgap d hd
  by_contra hcont
  rw [Bool.not_eq_false] at hcont
  obtain ⟨c, hc⟩ := Option.isSome_iff_exists.mp
    (List.getLast?_isSome.mpr p.lexeme.spells.ne_nil)
  have hlast : l.chars.getLast? = some c := by
    obtain ⟨qs, hqs⟩ := List.getLast?_eq_some_iff.mp hp
    rw [Layout.chars, hgap, hqs]
    simp [hc]
  have hbonds := p.lexeme.spells.bonds_of_continues hcont c hc
  rw [h c hlast d hd] at hbonds
  simp at hbonds

/-- **A text whose tokens are all found again is cut off from what follows it.** -/
theorem Lexeme.lexemes_append_of_prefix {as bs : List Char}
    (h : lexemes 0 as <+: lexemes 0 (as ++ bs)) :
    lexemes 0 (as ++ bs) = lexemes 0 as ++ lexemes (String.utf8Len as) bs := by
  obtain ⟨l, hsep, rfl⟩ := Layout.exists_separated as
  have hcut : ∀ p ∈ l.pieces.getLast?, l.last.chars = [] → Stops p.lexeme.chars bs := by
    intro p hp
    obtain ⟨ps, hps⟩ := List.getLast?_eq_some_iff.mp hp
    obtain ⟨kind, more, later, -, hmore, hfound⟩ := Layout.exists_last hsep hps bs
    -- the last lexeme is found again, so it is found as it was
    rw [(l.lexemes_chars_iff 0).mpr hsep, hfound, Layout.tokens, hps, Pieces.tokens_append,
      List.prefix_append_right_inj, Nat.zero_add, Pieces.tokens_cons, List.cons_prefix_cons] at h
    have htext := congrArg (fun t => t.text.toList) h.1
    rw [Piece.toList_text_token, Token.ofText, String.toList_ofList] at htext
    exact hmore.mp (by simpa using htext)
  have happend := Layout.lexemes_append_of_stops hsep hcut 0
  rwa [Nat.zero_add] at happend

theorem Lexeme.lexemes_shift (k n : Nat) (cs : List Char) :
    lexemes (k + n) cs = (lexemes k cs).map (Token.shift n) := by
  obtain ⟨l, hsep, rfl⟩ := Layout.exists_separated cs
  rw [(l.lexemes_chars_iff _).mpr hsep, (l.lexemes_chars_iff _).mpr hsep]
  exact Pieces.tokens_shift l.pieces k n

/-! ## Tokens in their places -/

namespace Token.Stands

variable {t u : Token} {before rest : List Char}

theorem unique (ht : t.Stands before rest) (hu : u.Stands before rest) : t = u := by
  obtain ⟨-, -, later, hlater⟩ := ht
  obtain ⟨-, -, later', hlater'⟩ := hu
  rw [hlater, List.append_cancel_left_eq] at hlater'
  exact (List.cons.inj hlater').1

/-- The text is cut where a token stands, and the token is the first of the rest. -/
theorem cut (h : t.Stands before rest) :
    lexemes 0 (before ++ rest) = lexemes 0 before ++ lexemes (String.utf8Len before) rest ∧
      ∃ later, lexemes (String.utf8Len before) rest = t :: later := by
  obtain ⟨-, -, later, hlater⟩ := h
  rw [tokensOf_eq, tokensOf_eq] at hlater
  have hcut := Lexeme.lexemes_append_of_prefix ⟨t :: later, hlater.symm⟩
  refine ⟨hcut, later, ?_⟩
  rw [hcut, List.append_cancel_left_eq] at hlater
  exact hlater

end Token.Stands

/-- A lexeme that is over where it ends stands where the text in front of it is cut off. -/
theorem Lexeme.Spells.stands {kind : TokenKind} {before w after : List Char} (h : Spells kind w)
    (hs : Stops w after)
    (hcut : lexemes 0 (before ++ (w ++ after)) =
      lexemes 0 before ++ lexemes (String.utf8Len before) (w ++ after)) :
    (Token.ofText kind (String.ofList w) (String.utf8Len before)).Stands before (w ++ after) where
  text := ⟨after, by rw [Token.ofText, String.toList_ofList]⟩
  span := rfl
  found := by
    rw [tokensOf_eq, tokensOf_eq, hcut, Lexeme.lexemes_append h hs]
    exact ⟨_, rfl⟩

/-- In a separated layout each piece stands behind the pieces before it and its gap. -/
theorem Layout.stands {l : Layout} (h : l.Separated) {ps qs : List Piece} {p : Piece}
    (hl : l.pieces = ps ++ p :: qs) :
    tokensOf (Pieces.chars ps ++ p.gap.chars) = Pieces.tokens 0 ps ∧
      Stops p.lexeme.chars (Pieces.chars qs ++ l.last.chars) ∧
      (p.token (String.utf8Len (Pieces.chars ps))).Stands (Pieces.chars ps ++ p.gap.chars)
        (p.lexeme.chars ++ (Pieces.chars qs ++ l.last.chars)) := by
  have hchars : Pieces.chars ps ++ p.gap.chars ++
      (p.lexeme.chars ++ (Pieces.chars qs ++ l.last.chars)) = l.chars := by
    rw [chars, hl]
    simp
  have hchain := h
  rw [Separated, hl, List.isChain_append] at hchain
  obtain ⟨hps, hqs, -⟩ := hchain
  have hfront : tokensOf (Pieces.chars ps ++ p.gap.chars) = Pieces.tokens 0 ps := by
    rw [tokensOf_eq]
    exact lexemes_of_isChain hps p.gap 0
  refine ⟨hfront, (stops_iff p.lexeme qs l.last).mpr (List.isChain_cons.mp hqs).1, ?_, ?_, ?_⟩
  · rw [Piece.toList_text_token]
    exact List.prefix_append _ _
  · rw [String.utf8Len_append]
    rfl
  · rw [hchars, hfront, tokensOf_eq, (l.lexemes_chars_iff 0).mpr h, tokens, hl,
      Pieces.tokens_append, Nat.zero_add]
    exact ⟨_, rfl⟩

/-- **Every token stands somewhere.** It has the shape of its kind, and is over where it ends. -/
theorem exists_stands {source : String} {earlier later : List Token} {t : Token}
    (h : (tokenize source).tokens.toList = earlier ++ t :: later) :
    ∃ before after, source.toList = before ++ (t.text.toList ++ after) ∧
      tokensOf before = earlier ∧ t.Stands before (t.text.toList ++ after) ∧
      Spells t.kind t.text.toList ∧ Stops t.text.toList after := by
  obtain ⟨l, hsep, hchars, htokens⟩ := Layout.exists_of_source source
  rw [htokens] at h
  obtain ⟨ps, p, qs, hl, rfl, rfl⟩ := Pieces.exists_of_tokens_eq h
  obtain ⟨hfront, hstops, hstands⟩ := Layout.stands hsep hl
  rw [Nat.zero_add, Piece.toList_text_token]
  refine ⟨_, _, ?_, hfront, hstands, p.lexeme.spells, hstops⟩
  rw [hchars, Layout.chars, hl]
  simp

end MiniLexer
