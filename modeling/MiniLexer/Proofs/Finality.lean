import MiniLexer.Proofs.Concatenation

/-!
# Which tokens are final

A reader of `a` who is then given `b` has every token of `a` right but perhaps the last. That
one keeps its beginning. It stays as it is unless it goes on in `b`, and then its text grows and
its kind may turn: `int` becomes an identifier, a beginning of `int` becomes the keyword, `>`
becomes `>=`.

The last lexeme of a separated layout of `a` is the head of the longest lexeme there in `a ++ b`
(`Spells.exists_over`), and the lexemes before it do not see what follows it
(`Pieces.lexemes_append`). So the two runs differ in this one lexeme and behind it.
-/

namespace MiniLexer

open Lexeme (Spells Stops IsWord lexemes isAlpha_of_isDigit isAlphanum_of_isAlpha
  isAlphanum_of_ofOperator?)

/-- The ways in which a longer text gives a token another kind. -/
inductive Token.Turns (t u : Token) : Prop where
  /-- With a letter or a digit behind it the keyword is a word like others. -/
  | ofKeyword : t.kind = .keywordInt → u.kind = .identifier → Turns t u
  /-- A beginning of the keyword is completed. -/
  | ofIdentifier : t.kind = .identifier → t.text = "i" ∨ t.text = "in" →
      u.kind = .keywordInt → u.text = "int" → Turns t u
  | ofGreater : t.kind = .greater → u.kind = .greaterEqual → Turns t u

/-- The last token `t` of the source `a` is the token `u` once `b` follows. -/
structure Token.Becomes (a b : String) (t u : Token) : Prop where
  start : u.span.start = t.span.start
  text : t.text.toList <+: u.text.toList
  /-- It changes exactly if it ends where `a` ends and the head of `b` continues it. -/
  unchanged : u = t ↔ ¬ (t.EndsAt a ∧ ∃ c ∈ b.toList.head?, t.kind.continuedBy c)
  kind : u.kind ≠ t.kind → t.Turns u

/-! ## A lexeme with more text behind it -/

theorem Lexeme.Spells.exists_over {kind : TokenKind} {w : List Char} (h : Spells kind w)
    (cs : List Char) : ∃ kind' more rest, cs = more ++ rest ∧ Spells kind' (w ++ more) ∧
      Stops (w ++ more) rest ∧ (more = [] ↔ Stops w cs) := by
  by_cases hs : Stops w cs
  · exact ⟨kind, [], cs, rfl, by simpa using h, by simpa using hs, by simp [hs]⟩
  · obtain ⟨d, ds, rfl⟩ := List.exists_cons_of_ne_nil (l := cs) (by rintro rfl; simp at hs)
    rw [Lexeme.stops_cons, Bool.not_eq_false] at hs
    obtain ⟨kind', more, rest, hcs, hmore, hk, hover⟩ := h.exists_longer hs
    exact ⟨kind', more, rest, hcs, hk, hover, by simp [hmore, hs]⟩

theorem Lexeme.Spells.isWord_of_head {kind : TokenKind} {c : Char} {cs : List Char}
    (h : Spells kind (c :: cs)) (hc : c.isAlpha) : IsWord (c :: cs) := by
  generalize htext : c :: cs = text at h
  cases h with
  | word hw => exact hw
  | number hw =>
      rw [isAlpha_of_isDigit (hw.2 c (by simp [← htext]))] at hc
      simp at hc
  | greaterEqual =>
      rw [(List.cons.inj htext).1] at hc
      exact absurd hc (by decide)
  | operator hop =>
      have halnum := isAlphanum_of_ofOperator? hop
      rw [← (List.cons.inj htext).1, isAlphanum_of_isAlpha hc] at halnum
      simp at halnum

theorem TokenKind.ofWord_of_ne {w : List Char} (h : w ≠ ['i', 'n', 't']) :
    ofWord w = .identifier := if_neg h

theorem Lexeme.Spells.eq_greaterEqual {kind : TokenKind} {cs : List Char}
    (h : Spells kind ('>' :: '=' :: cs)) : kind = .greaterEqual := by
  generalize htext : '>' :: '=' :: cs = text at h
  cases h with
  | word hw =>
      subst htext
      exact absurd hw.1 (by decide)
  | number hw =>
      subst htext
      exact absurd (hw.2 '>' (by simp)) (by decide)
  | greaterEqual => rfl
  | operator => simp at htext

/-- What the keyword begins with is the keyword, or two other words. -/
theorem Lexeme.eq_of_append_eq_int {w more : List Char} (hw : w ≠ [])
    (h : w ++ more = ['i', 'n', 't']) (hne : w ≠ ['i', 'n', 't']) :
    w = ['i'] ∨ w = ['i', 'n'] := by
  have hpre : w <+: ['i', 'n', 't'] := ⟨more, h⟩
  simp only [List.prefix_cons_iff, List.prefix_nil] at hpre
  rcases hpre with rfl | ⟨_, rfl, rfl | ⟨_, rfl, rfl | ⟨_, rfl, rfl⟩⟩⟩
  · exact absurd rfl hw
  · exact Or.inl rfl
  · exact Or.inr rfl
  · exact absurd rfl hne

/-- A longer word may gain or lose the keyword's spelling. -/
theorem Lexeme.IsWord.turns {w more : List Char} (hw : IsWord w)
    (hne : TokenKind.ofWord (w ++ more) ≠ .ofWord w) (k : Nat) :
    (Token.ofText (.ofWord w) (String.ofList w) k).Turns
      (.ofText (.ofWord (w ++ more)) (String.ofList (w ++ more)) k) := by
  by_cases hint : w = ['i', 'n', 't']
  · have hlong : w ++ more ≠ ['i', 'n', 't'] := by
      intro hlong
      rw [hlong, hint] at hne
      exact hne rfl
    refine .ofKeyword ?_ (TokenKind.ofWord_of_ne hlong)
    rw [hint]
    rfl
  · have hlong : w ++ more = ['i', 'n', 't'] := by
      by_contra hlong
      rw [TokenKind.ofWord_of_ne hint, TokenKind.ofWord_of_ne hlong] at hne
      exact hne rfl
    rw [hlong]
    refine .ofIdentifier (TokenKind.ofWord_of_ne hint) ?_ rfl rfl
    rcases eq_of_append_eq_int hw.ne_nil hlong hint with rfl | rfl
    · exact Or.inl rfl
    · exact Or.inr rfl

/-- A word stays a word, a number a number, and only `>` is the head of another operator. -/
theorem Lexeme.Spells.turns {kind kind' : TokenKind} {w more : List Char} (h : Spells kind w)
    (h' : Spells kind' (w ++ more)) (hne : kind' ≠ kind) (k : Nat) :
    (Token.ofText kind (String.ofList w) k).Turns
      (.ofText kind' (String.ofList (w ++ more)) k) := by
  have hmore : more ≠ [] := by
    intro hnil
    subst hnil
    rw [List.append_nil] at h'
    exact hne (h'.unique h)
  obtain ⟨d, ds, rfl⟩ := List.exists_cons_of_ne_nil hmore
  have hcont := h'.continues_prefix h.ne_nil
  cases h with
  | word hw =>
      obtain ⟨c, cs, rfl⟩ := List.exists_cons_of_ne_nil hw.ne_nil
      obtain rfl := h'.unique (.word (h'.isWord_of_head hw.1))
      exact hw.turns hne k
  | number hw =>
      obtain ⟨c, cs, rfl⟩ := List.exists_cons_of_ne_nil hw.1
      have hdigits := (Lexeme.mk kind' _ h').isDigit_of_head rfl (hw.2 c (by simp))
      exact absurd (h'.unique (.number ⟨by simp, hdigits⟩)) hne
  | greaterEqual => exact absurd hcont (by simp [Lexeme.continues])
  | @operator c kind hop =>
      rw [Lexeme.continues_operator hop, Bool.and_eq_true, decide_eq_true_eq,
        decide_eq_true_eq] at hcont
      obtain ⟨rfl, rfl⟩ := hcont
      obtain rfl : .greater = kind := Option.some.inj hop
      exact .ofGreater rfl (Lexeme.Spells.eq_greaterEqual h')

/-! ## Pieces with more text behind them -/

/-- Where two pieces are apart, the first is over before the second whatever comes later. -/
theorem Piece.Apart.stops {p q : Piece} (h : p.Apart q) (rest : List Char) :
    Stops p.lexeme.chars (q.chars ++ rest) := by
  obtain ⟨c, cs, hc, -⟩ := q.lexeme.exists_cons
  rw [Piece.chars, List.append_assoc, stops_gap]
  intro hgap
  have hmerge := h hgap
  rw [Lexeme.merge_iff, hc, Bool.not_eq_true] at hmerge
  rw [hc, List.cons_append, Lexeme.stops_cons]
  exact hmerge

/-- Pieces that are apart are found one after another if the last is over where they end. -/
theorem Pieces.lexemes_append {ps : List Piece} (h : ps.IsChain Piece.Apart) {rest : List Char}
    (hlast : ∀ p ∈ ps.getLast?, Stops p.lexeme.chars rest) (k : Nat) :
    lexemes k (chars ps ++ rest) =
      tokens k ps ++ lexemes (k + String.utf8Len (chars ps)) rest := by
  induction ps generalizing k with
  | nil => simp
  | cons p ps ih =>
      obtain ⟨hhead, htail⟩ := List.isChain_cons.mp h
      have hstops : Stops p.lexeme.chars (chars ps ++ rest) := by
        cases ps with
        | nil => exact hlast p rfl
        | cons q qs =>
            have := (hhead q rfl).stops (chars qs ++ rest)
            rwa [← List.append_assoc] at this
      have hlast' : ∀ q ∈ ps.getLast?, Stops q.lexeme.chars rest := by
        intro q hq
        exact hlast q (List.mem_getLast?_cons hq)
      rw [chars_cons, List.append_assoc, List.append_assoc, List.append_assoc,
        Lexeme.lexemes_skip_all p.gap.idle, Lexeme.lexemes_append p.lexeme.spells hstops,
        ih htail hlast']
      simp [Piece.token, Piece.chars, Nat.add_assoc]

/--
With more text behind a separated layout, the lexemes but the last are found as before, and
then one that has the last as its head.
-/
theorem Layout.exists_last {l : Layout} (h : l.Separated) {ps : List Piece} {p : Piece}
    (hl : l.pieces = ps ++ [p]) (bs : List Char) :
    ∃ kind more later, Spells kind (p.lexeme.chars ++ more) ∧
      (more = [] ↔ (l.last.chars = [] → Stops p.lexeme.chars bs)) ∧
      lexemes 0 (l.chars ++ bs) = Pieces.tokens 0 ps ++
        .ofText kind (String.ofList (p.lexeme.chars ++ more))
          (String.utf8Len (Pieces.chars ps) + String.utf8Len p.gap.chars) :: later := by
  rw [Separated, hl, List.isChain_append] at h
  obtain ⟨hchain, -, hseam⟩ := h
  obtain ⟨kind, more, rest, hsplit, hk, hover, hmore⟩ :=
    p.lexeme.spells.exists_over (l.last.chars ++ bs)
  rw [stops_gap] at hmore
  have hchars : l.chars ++ bs = Pieces.chars ps ++ (p.chars ++ (more ++ rest)) := by
    rw [← hsplit, chars, hl]
    simp [Piece.chars]
  have hlast : ∀ q ∈ ps.getLast?, Stops q.lexeme.chars (p.chars ++ (more ++ rest)) := by
    intro q hq
    exact (hseam q hq p rfl).stops _
  refine ⟨kind, more, lexemes (String.utf8Len (Pieces.chars ps) +
    String.utf8Len p.gap.chars + String.utf8Len (p.lexeme.chars ++ more)) rest, hk, hmore, ?_⟩
  rw [hchars, Pieces.lexemes_append hchain hlast, Piece.chars, List.append_assoc,
    Lexeme.lexemes_skip_all p.gap.idle, ← List.append_assoc, Lexeme.lexemes_append hk hover,
    Nat.zero_add]

/-- The token of the last lexeme becomes the token of the lexeme that has it as its head. -/
theorem Layout.becomes {l : Layout} {ps : List Piece} {p : Piece} (hl : l.pieces = ps ++ [p])
    {b : String} {kind : TokenKind} {more : List Char}
    (hk : Spells kind (p.lexeme.chars ++ more))
    (hmore : more = [] ↔ (l.last.chars = [] → Stops p.lexeme.chars b.toList)) :
    Token.Becomes (String.ofList l.chars) b (p.token (String.utf8Len (Pieces.chars ps)))
      (.ofText kind (String.ofList (p.lexeme.chars ++ more))
        (String.utf8Len (Pieces.chars ps) + String.utf8Len p.gap.chars)) where
  start := rfl
  text := by
    rw [Piece.toList_text_token]
    exact ⟨more, String.toList_ofList.symm⟩
  unchanged := by
    have hcond : (l.last.chars = [] → Stops p.lexeme.chars b.toList) ↔
        ¬ (l.last.chars = [] ∧ ∃ c ∈ b.toList.head?, p.lexeme.kind.continuedBy c) := by
      simp [Stops, p.lexeme.spells.continues_eq]
    rw [endsAt_iff hl, Piece.kind_token, ← hcond, ← hmore]
    constructor
    · intro heq
      have htext : (String.ofList (p.lexeme.chars ++ more)).toList = p.lexeme.chars :=
        (congrArg (fun t => t.text.toList) heq).trans (p.toList_text_token _)
      rw [String.toList_ofList] at htext
      simpa using htext
    · intro hnil
      subst hnil
      rw [List.append_nil] at hk ⊢
      rw [hk.unique p.lexeme.spells]
      rfl
  kind := fun hne => p.lexeme.spells.turns hk hne _

/-! ## At the top -/

/--
**Text that comes later can only touch the last token.**

The tokens of `a` but the last are the first tokens of `a ++ b`, and at the place of the last one
stands a token that begins where it began.
-/
theorem tokenize_append_dropLast (a b : String) :
    (tokenize a).tokens.toList.dropLast <+: (tokenize (a ++ b)).tokens.toList ∧
      ∀ t ∈ (tokenize a).tokens.toList.getLast?,
        ∃ u ∈ (tokenize (a ++ b)).tokens.toList[(tokenize a).tokens.toList.length - 1]?,
          Token.Becomes a b t u := by
  obtain ⟨l, hsep, hl⟩ := Layout.exists_separated a.toList
  obtain rfl : a = String.ofList l.chars := by rw [hl, String.ofList_toList]
  have happend : (tokenize (String.ofList l.chars ++ b)).tokens.toList =
      lexemes 0 (l.chars ++ b.toList) := by
    rw [← tokens_tokenize_ofList, String.ofList_append, String.ofList_toList]
  rw [l.tokens_tokenize hsep, happend, Layout.tokens]
  rcases List.eq_nil_or_concat' l.pieces with hnil | ⟨ps, p, hps⟩
  · simp [hnil]
  · obtain ⟨kind, more, later, hk, hmore, hfound⟩ := Layout.exists_last hsep hps b.toList
    have htokens : Pieces.tokens 0 l.pieces =
        Pieces.tokens 0 ps ++ [p.token (String.utf8Len (Pieces.chars ps))] := by
      rw [hps, Pieces.tokens_append, Nat.zero_add]
      rfl
    rw [hfound, htokens]
    constructor
    · rw [List.dropLast_concat]
      exact List.prefix_append _ _
    · intro t ht
      rw [List.getLast?_concat, Option.mem_some_iff] at ht
      subst ht
      refine ⟨_, ?_, Layout.becomes hps hk hmore⟩
      rw [List.length_append, List.length_singleton, Nat.add_sub_cancel,
        List.getElem?_append_right (Nat.le_refl _), Nat.sub_self]
      rfl

theorem tokenize_append_dropLast_keyword :
    Token.ofText .identifier "in" 2 ∈ (tokenize "x in").tokens.toList.getLast? ∧
      ∃ u ∈ (tokenize ("x in" ++ "t;")).tokens.toList[(tokenize "x in").tokens.toList.length - 1]?,
        Token.Becomes "x in" "t;" (.ofText .identifier "in" 2) u :=
  have h : Token.ofText .identifier "in" 2 ∈ (tokenize "x in").tokens.toList.getLast? := by
    decide +kernel
  ⟨h, (tokenize_append_dropLast "x in" "t;").2 _ h⟩

end MiniLexer
