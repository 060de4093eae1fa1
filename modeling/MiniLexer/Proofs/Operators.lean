import MiniLexer.Proofs.WordRuns

/-!
# Operators and delimiters

Which operator begins at a place is told by three characters: the one there, the one behind it
and the one in front of it (`Place.operator?`). A `>` looks at what follows, and an `=` at what it
follows; the others look at nothing. Words, numbers, blanks and the operators further off have no
say, however they are glued together.

So the operators of a source can be read off its places one by one (`OperatorLaw`). That takes a
cut in front of each, and there is one because nothing bonds with an operator on its right but a
`>` with an `=`. The list of them is carried along the text with what has been passed
(`Place.operators`): the invariant is that the passed text does not end inside of `>=`, and each
lexeme keeps it by being over where it ends.
-/

namespace MiniLexer

open Lexeme (Spells Stops lexemes)

/-- A place of a text. -/
structure Place where
  /-- What is in front of it. -/
  before : List Char
  /-- What follows. -/
  rest : List Char
  deriving DecidableEq, Repr

/-- The operator or delimiter that begins at a place. -/
def Place.operator? (p : Place) : Option Token :=
  match p.rest with
  | [] => none
  | c :: cs =>
    if c = '>' ∧ cs.head? = some '=' then
      some (.ofText .greaterEqual ">=" (String.utf8Len p.before))
    else if c = '=' ∧ p.before.getLast? = some '>' then none
    else (TokenKind.ofOperator? c).map fun kind =>
      .ofText kind (String.ofList [c]) (String.utf8Len p.before)

/-- The places of a text, from its beginning to its end. -/
def places (cs : List Char) : List Place :=
  (List.range (cs.length + 1)).map fun n => ⟨cs.take n, cs.drop n⟩

/-- What the places of a source say of its operators and delimiters. -/
structure OperatorLaw (source : String) : Prop where
  /-- The operator of a place is the token that stands there. -/
  stands : ∀ p : Place, source.toList = p.before ++ p.rest → ∀ t, p.operator? = some t →
    t.Stands p.before p.rest
  /-- There are no others. -/
  only : (tokenize source).tokens.toList.filter (·.kind.isOperator) =
    (places source.toList).filterMap Place.operator?
  /-- `>=` is found as often as it is written. -/
  greaterEqual : (tokenize source).tokens.toList.countP (·.kind = .greaterEqual) =
    (places source.toList).countP fun p => ['>', '='].isPrefixOf p.rest
  /-- `=` is found as often as it is written without a `>` in front of it. -/
  assignment : (tokenize source).tokens.toList.countP (·.kind = .assignment) =
    (places source.toList).countP fun p =>
      p.rest.head? = some '=' ∧ p.before.getLast? ≠ some '>'

/-! ## How operators are spelled -/

theorem TokenKind.isOperator_ofWord (w : List Char) : (ofWord w).isOperator = false := by
  unfold ofWord
  split <;> rfl

theorem TokenKind.eq_of_ofOperator?_assignment {c : Char} (h : ofOperator? c = some .assignment) :
    c = '=' := by
  unfold ofOperator? at h
  split at h <;> simp_all

theorem TokenKind.ofOperator?_ne_greaterEqual (c : Char) :
    ofOperator? c ≠ some .greaterEqual := by
  unfold ofOperator?
  split <;> simp

/-- On its right an operator has a character that it bonds with in `>=` only. -/
theorem Lexeme.bonds_operator {d : Char} {kind : TokenKind}
    (h : TokenKind.ofOperator? d = some kind) (c : Char) : bonds c d = (c = '>' && d = '=') := by
  simp [bonds, isAlphanum_of_ofOperator? h]

namespace Lexeme.Spells

variable {kind : TokenKind} {w rest : List Char}

theorem cases_of_isOperator (h : Spells kind w) (hkind : kind.isOperator) :
    (kind = .greaterEqual ∧ w = ['>', '=']) ∨
      ∃ c, TokenKind.ofOperator? c = some kind ∧ w = [c] := by
  cases h with
  | word => simp [TokenKind.isOperator_ofWord] at hkind
  | number => simp [TokenKind.isOperator] at hkind
  | greaterEqual => exact Or.inl ⟨rfl, rfl⟩
  | operator hop => exact Or.inr ⟨_, hop, rfl⟩

theorem text_greaterEqual (h : Spells .greaterEqual w) : w = ['>', '='] := by
  rcases h.cases_of_isOperator rfl with ⟨-, hw⟩ | ⟨c, hop, -⟩
  · exact hw
  · exact absurd hop (TokenKind.ofOperator?_ne_greaterEqual c)

theorem text_assignment (h : Spells .assignment w) : w = ['='] := by
  rcases h.cases_of_isOperator rfl with ⟨hkind, -⟩ | ⟨c, hop, rfl⟩
  · simp at hkind
  · rw [TokenKind.eq_of_ofOperator?_assignment hop]

/-- What is over where it ends does not end inside of `>=`. -/
theorem head?_ne_of_getLast? (h : Spells kind w) (hs : Stops w rest)
    (hlast : w.getLast? = some '>') : rest.head? ≠ some '=' := by
  have hmem := List.mem_of_getLast? hlast
  cases h with
  | word hw => exact absurd (hw.isAlphanum _ hmem) (by decide)
  | number hw => exact absurd (hw.2 _ hmem) (by decide)
  | greaterEqual => simp at hlast
  | operator =>
      obtain rfl := List.mem_singleton.mp hmem
      intro hrest
      exact absurd (hs '=' hrest) (by decide)

end Lexeme.Spells

/-! ## The operator of a place -/

namespace Place

variable {before cs : List Char} {c : Char}

theorem operator?_greaterEqual (before cs : List Char) :
    operator? ⟨before, '>' :: '=' :: cs⟩ =
      some (.ofText .greaterEqual ">=" (String.utf8Len before)) := rfl

theorem operator?_of_ofOperator? {kind : TokenKind} (hop : TokenKind.ofOperator? c = some kind)
    (hs : Stops [c] cs) (hleft : c = '=' → before.getLast? ≠ some '>') :
    operator? ⟨before, c :: cs⟩ =
      some (.ofText kind (String.ofList [c]) (String.utf8Len before)) := by
  have hpair : ¬ (c = '>' ∧ cs.head? = some '=') := by
    rintro ⟨rfl, hcs⟩
    exact absurd (hs '=' hcs) (by decide)
  have hsecond : ¬ (c = '=' ∧ before.getLast? = some '>') := fun h => hleft h.1 h.2
  simp only [operator?, if_neg hpair, if_neg hsecond, hop, Option.map_some]

theorem operator?_of_ofOperator?_eq_none (hop : TokenKind.ofOperator? c = none) :
    operator? ⟨before, c :: cs⟩ = none := by
  have hc : c ≠ '>' := by
    rintro rfl
    simp [TokenKind.ofOperator?] at hop
  simp [operator?, hc, hop]

theorem operator?_second (h : before.getLast? = some '>') :
    operator? ⟨before, '=' :: cs⟩ = none := by
  simp [operator?, h]

/-- The operator of a place begins there and is over where it ends. -/
theorem exists_of_operator? {p : Place} {t : Token} (h : p.operator? = some t) :
    ∃ kind w after, p.rest = w ++ after ∧ Spells kind w ∧ Stops w after ∧
      (∀ c ∈ p.before.getLast?, ∀ d ∈ p.rest.head?, Lexeme.bonds c d = false) ∧
      t = .ofText kind (String.ofList w) (String.utf8Len p.before) := by
  obtain ⟨before, rest⟩ := p
  unfold operator? at h
  dsimp only at h
  split at h
  · simp at h
  · rename_i c cs
    split at h
    · -- the two characters of `>=`
      rename_i hpair
      obtain ⟨rfl, hcs⟩ := hpair
      obtain ⟨ds, rfl⟩ := List.head?_eq_some_iff.mp hcs
      refine ⟨_, ['>', '='], ds, rfl, .greaterEqual, ?_, ?_, (Option.some.inj h).symm⟩
      · intro d _
        simp [Lexeme.continues]
      · intro d _ e he
        obtain rfl := Option.some.inj he
        simp [Lexeme.bonds]
    · split at h
      · simp at h
      · -- an operator of one character that is no part of `>=`
        rename_i hpair hsecond
        obtain ⟨kind, hop, rfl⟩ := Option.map_eq_some_iff.mp h
        refine ⟨kind, [c], cs, rfl, .operator hop, ?_, ?_, rfl⟩
        · intro d hd
          rw [Lexeme.continues_operator hop, Bool.and_eq_false_iff, decide_eq_false_iff_not,
            decide_eq_false_iff_not, ← not_and_or]
          rintro ⟨rfl, rfl⟩
          exact hpair ⟨rfl, hd⟩
        · intro d hd e he
          obtain rfl := Option.some.inj he
          rw [Lexeme.bonds_operator hop, Bool.and_eq_false_iff, decide_eq_false_iff_not,
            decide_eq_false_iff_not, ← not_and_or]
          rintro ⟨rfl, rfl⟩
          exact hsecond ⟨rfl, hd⟩

theorem stands_of_operator? {p : Place} {t : Token} (h : p.operator? = some t) :
    t.Stands p.before p.rest := by
  obtain ⟨kind, w, after, hrest, hk, hs, hseam, rfl⟩ := exists_of_operator? h
  have hcut := Lexeme.lexemes_append_of_bonds hseam 0
  rw [Nat.zero_add] at hcut
  rw [hrest] at hcut ⊢
  exact hk.stands hs hcut

theorem kind_operator?_eq_greaterEqual_iff {p : Place} :
    p.operator?.map Token.kind = some .greaterEqual ↔ ['>', '='] <+: p.rest := by
  rw [Option.map_eq_some_iff]
  constructor
  · rintro ⟨t, ht, hkind⟩
    obtain ⟨kind, w, after, hrest, hk, -, -, rfl⟩ := exists_of_operator? ht
    obtain rfl : kind = .greaterEqual := hkind
    rw [hrest, hk.text_greaterEqual]
    exact List.prefix_append _ _
  · obtain ⟨before, rest⟩ := p
    rintro ⟨cs, rfl⟩
    exact ⟨_, operator?_greaterEqual before cs, rfl⟩

theorem kind_operator?_eq_assignment_iff {p : Place} :
    p.operator?.map Token.kind = some .assignment ↔
      p.rest.head? = some '=' ∧ p.before.getLast? ≠ some '>' := by
  rw [Option.map_eq_some_iff]
  constructor
  · rintro ⟨t, ht, hkind⟩
    obtain ⟨kind, w, after, hrest, hk, -, hseam, rfl⟩ := exists_of_operator? ht
    obtain rfl : kind = .assignment := hkind
    have hhead : p.rest.head? = some '=' := by
      rw [hrest, hk.text_assignment]
      rfl
    exact ⟨hhead, fun hlast => absurd (hseam '>' hlast '=' hhead) (by decide)⟩
  · obtain ⟨before, rest⟩ := p
    rintro ⟨hhead, hleft⟩
    obtain ⟨cs, rfl⟩ := List.head?_eq_some_iff.mp hhead
    have hop : TokenKind.ofOperator? '=' = some .assignment := rfl
    have hs : Stops ['='] cs := by
      intro d _
      rw [Lexeme.continues_operator hop]
      simp
    exact ⟨_, operator?_of_ofOperator? hop hs fun _ => hleft, rfl⟩

/-! ## The operators of a text -/

/-- The place behind some more text. -/
def after (before : List Char) (p : Place) : Place := ⟨before ++ p.before, p.rest⟩

theorem places_cons (c : Char) (cs : List Char) :
    places (c :: cs) = ⟨[], c :: cs⟩ :: (places cs).map (after [c]) := by
  simp [places, List.range_succ_eq_map, after, Function.comp_def]

/-- The operators of a text behind `before`. -/
def operators (before cs : List Char) : List Token :=
  ((places cs).map (after before)).filterMap operator?

@[simp] theorem operators_nil (before : List Char) : operators before [] = [] := by
  simp [operators, places, after, operator?]

theorem operators_cons (before : List Char) (c : Char) (cs : List Char) :
    operators before (c :: cs) =
      (operator? ⟨before, c :: cs⟩).toList ++ operators (before ++ [c]) cs := by
  have hafter : after before ∘ after [c] = after (before ++ [c]) := by
    funext p
    simp [after]
  rw [operators, places_cons, List.map_cons, List.map_map, hafter, List.filterMap_cons]
  simp only [after, List.append_nil]
  cases operator? ⟨before, c :: cs⟩ with
  | none => rfl
  | some t => rfl

theorem operators_append_of_isAlphanum {w : List Char} (h : ∀ c ∈ w, c.isAlphanum)
    (before rest : List Char) : operators before (w ++ rest) = operators (before ++ w) rest := by
  induction w generalizing before with
  | nil => simp
  | cons c w ih =>
      have hop : TokenKind.ofOperator? c = none := by
        by_contra hsome
        obtain ⟨kind, hkind⟩ := Option.ne_none_iff_exists'.mp hsome
        have halnum := h c (by simp)
        rw [Lexeme.isAlphanum_of_ofOperator? hkind] at halnum
        simp at halnum
      rw [List.cons_append, operators_cons, operator?_of_ofOperator?_eq_none hop,
        ih (fun d hd => h d (by simp [hd]))]
      simp

/-- **A lexeme is passed.** The operators from there on are itself, if it is one, and those behind
it. -/
theorem operators_append {kind : TokenKind} {w rest : List Char} (hk : Spells kind w)
    (hs : Stops w rest) (hleft : before.getLast? = some '>' → (w ++ rest).head? ≠ some '=') :
    operators before (w ++ rest) =
      (if kind.isOperator then [Token.ofText kind (String.ofList w) (String.utf8Len before)]
        else []) ++ operators (before ++ w) rest := by
  cases hk with
  | word hw =>
      rw [operators_append_of_isAlphanum hw.isAlphanum, TokenKind.isOperator_ofWord]
      simp
  | number hw =>
      rw [operators_append_of_isAlphanum fun c hc => Lexeme.isAlphanum_of_isDigit (hw.2 c hc)]
      simp [TokenKind.isOperator]
  | greaterEqual =>
      -- at its second character there is the `>` in front
      rw [List.cons_append, List.cons_append, operators_cons, operators_cons,
        operator?_second (by simp)]
      simp [operator?_greaterEqual, TokenKind.isOperator]
  | @operator c kind hop =>
      have hassign : c = '=' → before.getLast? ≠ some '>' := by
        rintro rfl hlast
        exact hleft hlast rfl
      rw [List.cons_append, List.nil_append, operators_cons,
        operator?_of_ofOperator? hop hs hassign, TokenKind.isOperator_of_ofOperator? hop]
      simp

end Place

/-- **The operators of a text are the tokens of their kinds.** -/
theorem filter_lexemes {k : Nat} {before cs : List Char} (hk : k = String.utf8Len before)
    (hleft : before.getLast? = some '>' → cs.head? ≠ some '=') :
    (lexemes k cs).filter (·.kind.isOperator) = Place.operators before cs := by
  induction cs using Lexeme.text_induction generalizing k before with
  | nil => simp
  | skip c cs hc ih =>
      -- the character that is dropped is no `>`, as one begins a lexeme
      rw [Lexeme.lexemes_skip hc]
      simp only [Lexeme.isTokenChar, Bool.or_eq_false_iff, Option.isSome_eq_false_iff,
        Option.isNone_iff_eq_none] at hc
      rw [Place.operators_cons, Place.operator?_of_ofOperator?_eq_none hc.2]
      refine ih ?_ ?_
      · simp [hk]
      · intro hlast
        rw [List.getLast?_concat, Option.some.injEq] at hlast
        subst hlast
        simp [TokenKind.ofOperator?] at hc
  | take kind w rest hspells hs ih =>
      have hpassed := Place.operators_append hspells hs hleft
      have hoffset : k + String.utf8Len w = String.utf8Len (before ++ w) := by
        rw [String.utf8Len_append, hk]
      -- if the passed text ends in `>` now, that is the lexeme, which an `=` would continue
      have hlast : (before ++ w).getLast? = some '>' → rest.head? ≠ some '=' := by
        rw [List.getLast?_append_of_ne_nil before hspells.ne_nil]
        exact hspells.head?_ne_of_getLast? hs
      rw [Lexeme.lexemes_append hspells hs, hpassed, ← ih hoffset hlast, List.filter_cons, hk,
        Token.ofText]
      split
      · rfl
      · rfl

/-! ## At the top -/

theorem filter_tokens_tokenize (source : String) :
    (tokenize source).tokens.toList.filter (·.kind.isOperator) =
      (places source.toList).filterMap Place.operator? := by
  have hafter : Place.after [] = id := rfl
  have hfilter : (lexemes 0 source.toList).filter (·.kind.isOperator) =
      Place.operators [] source.toList := filter_lexemes rfl (by simp)
  rwa [Place.operators, hafter, List.map_id, ← tokensOf_eq, tokensOf_toList] at hfilter

/-- There are as many operators of a kind as there are places where one begins. -/
theorem countP_tokens_tokenize (source : String) {kind : TokenKind} (h : kind.isOperator) :
    (tokenize source).tokens.toList.countP (·.kind = kind) =
      (places source.toList).countP fun p => p.operator?.map Token.kind = some kind := by
  have hcount := congrArg (List.countP fun t => t.kind = kind) (filter_tokens_tokenize source)
  rw [List.countP_filter, List.countP_filterMap] at hcount
  calc (tokenize source).tokens.toList.countP (·.kind = kind)
      = (tokenize source).tokens.toList.countP fun t => t.kind = kind && t.kind.isOperator := by
        refine List.countP_congr fun t _ => ?_
        simp only [Bool.and_eq_true, decide_eq_true_eq]
        exact ⟨fun ht => ⟨ht, ht ▸ h⟩, And.left⟩
    _ = _ := hcount
    _ = _ := by
        refine List.countP_congr fun p _ => ?_
        cases p.operator? with
        | none => simp
        | some t => simp

/--
**Every operator and delimiter is found by the characters next to it.**

What a place of the source has for an operator stands there as a token, and in their order these
are all the tokens of such kinds. The two that a `>` and an `=` may be parts of are counted as
they are written.
-/
theorem operatorLaw_tokenize (source : String) : OperatorLaw source where
  stands := fun p _ t ht => Place.stands_of_operator? ht
  only := filter_tokens_tokenize source
  greaterEqual := by
    rw [countP_tokens_tokenize source rfl]
    refine List.countP_congr fun p _ => ?_
    rw [decide_eq_true_eq, Place.kind_operator?_eq_greaterEqual_iff, List.isPrefixOf_iff_prefix]
  assignment := by
    rw [countP_tokens_tokenize source rfl]
    refine List.countP_congr fun p _ => ?_
    rw [decide_eq_true_eq, decide_eq_true_eq, Place.kind_operator?_eq_assignment_iff]

/-- The second `=` is on its own. -/
example : (places ['>', '>', '=', '=', 'a']).filterMap Place.operator? =
    [.ofText .greater ">" 0, .ofText .greaterEqual ">=" 1, .ofText .assignment "=" 3] := by
  decide

end MiniLexer
