import MiniLexer.Proofs.LexemeShape
import MiniLexer.Tokenize

/-!
# The lexeme that is open

The scanner keeps the open lexeme in four pieces: a state, a text, a kind and an offset. They
are never out of step. `ScanState.Holds` says which texts a state stands for, and
`Scanner.Pending s k w` that `w`, which begins at byte `k`, is what the scanner `s` has read and
not yet made a token of; with `w` empty, nothing is open.

Each edge of the automaton is then one of four things that happen to the pending text: it
grows by a character that continues it, it is over and becomes a token, a character begins a
new one, or a character is dropped. From these the run lemma follows by induction over the
characters: what a scan will find is what `Lexeme.lexemes` finds in the pending text followed
by the text still unread (`tokens_finish_feed`).
-/

namespace MiniLexer

open Lexeme

/-! ## What a state stands for -/

namespace ScanState

/-- The texts of open lexemes that lead to a state. -/
def Holds : ScanState → List Char → Prop
  | .initial, w => w = []
  | .wordI, w => w = ['i']
  | .wordIn, w => w = ['i', 'n']
  | .wordInt, w => w = ['i', 'n', 't']
  | .word, w => IsWord w ∧ w ≠ ['i'] ∧ w ≠ ['i', 'n'] ∧ w ≠ ['i', 'n', 't']
  | .greater, w => w = ['>']
  | .greaterEqual, w => w = ['>', '=']
  | .assignment, w => w = ['=']
  | .plus, w => w = ['+']
  | .minus, w => w = ['-']
  | .star, w => w = ['*']
  | .slash, w => w = ['/']
  | .semicolon, w => w = [';']
  | .leftParen, w => w = ['(']
  | .rightParen, w => w = [')']
  | .number, w => IsNumber w

/-- The kind that the open lexeme has for now. The keyword is an identifier until it is over. -/
def kind? : ScanState → Option TokenKind
  | .initial => none
  | .wordI | .wordIn | .wordInt | .word => some .identifier
  | .greater => some .greater
  | .greaterEqual => some .greaterEqual
  | .assignment => some .assignment
  | .plus => some .plus
  | .minus => some .minus
  | .star => some .star
  | .slash => some .slash
  | .semicolon => some .semicolon
  | .leftParen => some .leftParen
  | .rightParen => some .rightParen
  | .number => some .intLiteral

theorem Holds.eq_initial_iff {st : ScanState} {w : List Char} (h : st.Holds w) :
    st = .initial ↔ w = [] := by
  cases st with
  | initial => simpa [Holds] using h
  | word => simp [h.1.ne_nil]
  | number => simp [h.1]
  | _ => simp [show w = _ from h]

theorem isWord_i : IsWord ['i'] := by simp [IsWord]
theorem isWord_in : IsWord ['i', 'n'] := by simp [IsWord]
theorem isWord_int : IsWord ['i', 'n', 't'] := by simp [IsWord]

theorem Holds.concat_word {w : List Char} {c : Char} (h : ScanState.word.Holds w)
    (hc : c.isAlphanum) : ScanState.word.Holds (w ++ [c]) := by
  obtain ⟨hw, hi, hin, -⟩ := h
  -- each of the three without its last character is excluded, or empty
  refine ⟨hw.concat hc, ?_, ?_, ?_⟩
  · intro he
    exact hw.ne_nil (List.append_inj' (show w ++ [c] = [] ++ ['i'] from he) rfl).1
  · intro he
    exact hi (List.append_inj' (show w ++ [c] = ['i'] ++ ['n'] from he) rfl).1
  · intro he
    exact hin (List.append_inj' (show w ++ [c] = ['i', 'n'] ++ ['t'] from he) rfl).1

end ScanState

/-! ## Classes of characters -/

theorem CharClass.ofChar_of_isAlpha {c : Char} (h : c.isAlpha) : ofChar c = letter := by
  simp [ofChar, h]

theorem CharClass.ofChar_of_isDigit {c : Char} (h : c.isDigit) : ofChar c = digit := by
  simp [ofChar, h, isAlpha_of_isDigit h]

theorem CharClass.ofChar_of_not_isAlphanum {c : Char} (h : c.isAlphanum = false) :
    ofChar c = blank ∨ ofChar c = other := by
  simp only [Char.isAlphanum, Bool.or_eq_false_iff] at h
  simp only [ofChar, h.1, h.2, Bool.false_eq_true, if_false]
  split
  · exact Or.inl rfl
  · exact Or.inr rfl

theorem isWordChar_eq (c : Char) : isWordChar c = c.isAlphanum := by
  unfold isWordChar
  cases ha : c.isAlphanum with
  | true =>
      rcases Bool.or_eq_true_iff.mp ha with h | h
      · rw [CharClass.ofChar_of_isAlpha h]
      · rw [CharClass.ofChar_of_isDigit h]
  | false =>
      rcases CharClass.ofChar_of_not_isAlphanum ha with h | h <;> rw [h]

/-! ## What an edge does to the text -/

section
variable {c expected : Char} {next : ScanState}

/-- Off the way to the keyword a word is any word. -/
theorem keywordEdge_of_ne (hne : c ≠ expected) (hc : c.isAlphanum) :
    keywordEdge c expected next = ⟨.word, .extend⟩ := by
  simp [keywordEdge, hne, isWordChar_eq, hc]

theorem keywordEdge_of_not_isAlphanum (he : expected.isAlphanum) (hc : c.isAlphanum = false) :
    keywordEdge c expected next = .close := by
  have hne : c ≠ expected := by
    intro heq
    subst heq
    rw [he] at hc
    simp at hc
  simp [keywordEdge, hne, isWordChar_eq, hc]

end

/-- **A character that continues the pending text lengthens it.** -/
theorem transition_of_continues {st : ScanState} {w : List Char} {c : Char}
    (h : st.Holds w) (hc : continues w c) :
    (transition st c).next.Holds (w ++ [c]) ∧
      ((transition st c).action = .extend ∧ (transition st c).next.kind? = st.kind? ∨
        ∃ kind, (transition st c).action = .extendAs kind ∧
          (transition st c).next.kind? = some kind) := by
  cases st with
  | wordI =>
      subst h
      rw [ScanState.isWord_i.continues] at hc
      -- one step further on the way to the keyword, or off it for good
      by_cases hn : c = 'n'
      · subst hn
        exact ⟨rfl, Or.inl ⟨rfl, rfl⟩⟩
      · have hedge : transition .wordI c = ⟨.word, .extend⟩ := keywordEdge_of_ne hn hc
        rw [hedge]
        exact ⟨⟨ScanState.isWord_i.concat hc, by simp, by simpa using hn, by simp⟩,
          Or.inl ⟨rfl, rfl⟩⟩
  | wordIn =>
      subst h
      rw [ScanState.isWord_in.continues] at hc
      by_cases ht : c = 't'
      · subst ht
        exact ⟨rfl, Or.inl ⟨rfl, rfl⟩⟩
      · have hedge : transition .wordIn c = ⟨.word, .extend⟩ := keywordEdge_of_ne ht hc
        rw [hedge]
        exact ⟨⟨ScanState.isWord_in.concat hc, by simp, by simp, by simpa using ht⟩,
          Or.inl ⟨rfl, rfl⟩⟩
  | wordInt =>
      subst h
      rw [ScanState.isWord_int.continues] at hc
      have hedge : transition .wordInt c = ⟨.word, .extend⟩ := by
        simp [transition, isWordChar_eq, hc]
      rw [hedge]
      exact ⟨⟨ScanState.isWord_int.concat hc, by simp, by simp, by simp⟩, Or.inl ⟨rfl, rfl⟩⟩
  | word =>
      rw [h.1.continues] at hc
      have hedge : transition .word c = ⟨.word, .extend⟩ := by
        simp [transition, isWordChar_eq, hc]
      rw [hedge]
      exact ⟨h.concat_word hc, Or.inl ⟨rfl, rfl⟩⟩
  | number =>
      rw [IsNumber.continues h] at hc
      have hedge : transition .number c = ⟨.number, .extend⟩ := by simp [transition, hc]
      rw [hedge]
      exact ⟨IsNumber.concat h hc, Or.inl ⟨rfl, rfl⟩⟩
  | greater =>
      subst h
      have hc : c = '=' := by simpa [continues] using hc
      subst hc
      exact ⟨rfl, Or.inr ⟨.greaterEqual, rfl, rfl⟩⟩
  | _ =>
      -- the other lexemes are as long as they can be
      subst h
      simp [continues] at hc

/-- **Where the pending text is over, the edge does what the end of the input would do.** -/
theorem transition_of_not_continues {st : ScanState} {w : List Char} {c : Char}
    (h : st.Holds w) (hw : w ≠ []) (hc : continues w c = false) :
    transition st c = ⟨.initial, endOfInput st⟩ := by
  cases st with
  | initial => exact absurd h hw
  | wordI =>
      subst h
      rw [ScanState.isWord_i.continues] at hc
      exact keywordEdge_of_not_isAlphanum (by decide) hc
  | wordIn =>
      subst h
      rw [ScanState.isWord_in.continues] at hc
      exact keywordEdge_of_not_isAlphanum (by decide) hc
  | wordInt =>
      subst h
      rw [ScanState.isWord_int.continues] at hc
      simp [transition, isWordChar_eq, hc, endOfInput]
  | word =>
      rw [h.1.continues] at hc
      simp [transition, isWordChar_eq, hc, Edge.close, endOfInput]
  | number =>
      rw [IsNumber.continues h] at hc
      simp [transition, hc, Edge.close, endOfInput]
  | greater =>
      subst h
      have hc : c ≠ '=' := by simpa [continues] using hc
      simp [transition, hc, Edge.close, endOfInput]
  | _ => rfl

/-- The end of the input gives the pending text a kind that it has as a lexeme. -/
theorem endOfInput_of_holds {st : ScanState} {w : List Char} (h : st.Holds w) (hw : w ≠ []) :
    ∃ kind, Spells kind w ∧
      (endOfInput st = .closeAs kind ∨ endOfInput st = .close ∧ st.kind? = some kind) := by
  cases st with
  | initial => exact absurd h hw
  | word =>
      have hkind : TokenKind.ofWord w = .identifier := if_neg h.2.2.2
      exact ⟨.identifier, hkind ▸ .word h.1, Or.inr ⟨rfl, rfl⟩⟩
  | number => exact ⟨.intLiteral, .number h, Or.inr ⟨rfl, rfl⟩⟩
  | wordInt =>
      subst h
      exact ⟨.keywordInt, by decide, Or.inl rfl⟩
  | _ =>
      subst h
      exact ⟨_, by decide, Or.inr ⟨rfl, rfl⟩⟩

theorem operator?_eq_none {c : Char} (h : TokenKind.ofOperator? c = none) :
    operator? c = none := by
  have hall : ∀ p ∈ operators, TokenKind.ofOperator? p.1 ≠ none := by decide
  refine List.lookup_eq_none_iff.mpr ?_
  intro p hp
  rw [bne_iff_ne]
  intro he
  subst he
  exact hall p hp h

theorem openingEdge_of_isTokenChar {c : Char} (h : isTokenChar c) :
    ∃ st kind, openingEdge c = ⟨st, .start kind⟩ ∧ st.Holds [c] ∧ st.kind? = some kind := by
  rw [isTokenChar, Bool.or_eq_true, Char.isAlphanum, Bool.or_eq_true] at h
  rcases h with (ha | hd) | hop
  · have hword : IsWord [c] := ⟨ha, by simp⟩
    by_cases hi : c = 'i'
    · subst hi
      exact ⟨.wordI, .identifier, rfl, rfl, rfl⟩
    · refine ⟨.word, .identifier, ?_, ⟨hword, by simpa using hi, by simp, by simp⟩, rfl⟩
      simp [openingEdge, CharClass.ofChar_of_isAlpha ha, hi]
  · refine ⟨.number, .intLiteral, ?_, ⟨by simp, by simpa using hd⟩, rfl⟩
    simp [openingEdge, CharClass.ofChar_of_isDigit hd]
  · obtain ⟨kind, hkind⟩ := Option.isSome_iff_exists.mp hop
    unfold TokenKind.ofOperator? at hkind
    split at hkind
    case h_10 => simp at hkind
    all_goals exact ⟨_, _, rfl, rfl, rfl⟩

theorem openingEdge_of_not_isTokenChar {c : Char} (h : isTokenChar c = false) :
    openingEdge c = ⟨.initial, .skip⟩ := by
  rw [isTokenChar, Bool.or_eq_false_iff, Option.isSome_eq_false_iff, Option.isNone_iff_eq_none] at h
  rcases CharClass.ofChar_of_not_isAlphanum h.1 with hcls | hcls
  · simp [openingEdge, hcls]
  · simp [openingEdge, hcls, operator?_eq_none h.2]

/-! ## The pending text of a scanner -/

namespace Scanner

/-- `w`, which begins at byte `k`, is read and is not yet a token. -/
structure Pending (s : Scanner) (k : Nat) (w : List Char) : Prop where
  /-- The state stands for the text. -/
  state : s.state.Holds w
  /-- The text is at hand. -/
  buffer : s.buffer = String.ofList w
  /-- The kind is the one the state has. -/
  kind : s.kind = s.state.kind?
  /-- The offset is where the text begins, if it has begun. -/
  start : w ≠ [] → s.start = k

/-- Nothing is pending before the first character, and this stands anywhere. -/
theorem pending_init (k : Nat) : Pending {} k [] where
  state := rfl
  buffer := rfl
  kind := rfl
  start := fun h => absurd rfl h

/-- Closes the open lexeme and starts over. -/
def flush (s : Scanner) : Scanner := { s.finish with state := .initial }

variable {s : Scanner} {k : Nat} {w : List Char} {c : Char}

theorem Pending.state_eq_initial (h : s.Pending k []) : s.state = .initial :=
  h.state.eq_initial_iff.mpr rfl

theorem Pending.state_ne_initial (h : s.Pending k w) (hw : w ≠ []) : s.state ≠ .initial :=
  fun he => hw (h.state.eq_initial_iff.mp he)

theorem Pending.ne_nil (h : s.Pending k w) (hst : s.state ≠ .initial) : w ≠ [] :=
  fun he => hst (h.state.eq_initial_iff.mpr he)

theorem Pending.finish_nil (h : s.Pending k []) : s.finish = s := by
  rw [finish, h.state_eq_initial]
  rfl

/-- **The end of the input makes the pending text one token, of the kind it has as a lexeme.** -/
theorem Pending.finish_eq (h : s.Pending k w) (hw : w ≠ []) :
    ∃ kind, Spells kind w ∧
      s.finish = Scanner.emit { s with buffer := "", kind := none }
        (.ofText kind (String.ofList w) k) := by
  obtain ⟨kind, hk, hend⟩ := endOfInput_of_holds h.state hw
  refine ⟨kind, hk, ?_⟩
  rcases hend with hend | ⟨hend, hkind⟩
  · -- the keyword, whose kind is found only here
    rw [finish, hend]
    simp [close, h.buffer, h.start hw, hw]
  · rw [finish, hend]
    simp [close, h.buffer, h.start hw, h.kind, hkind, hw]

theorem Pending.flush_nil (h : s.Pending k w) (j : Nat) : s.flush.Pending j [] := by
  by_cases hw : w = []
  · subst hw
    rw [flush, h.finish_nil]
    exact ⟨rfl, h.buffer, by rw [h.kind, h.state_eq_initial], fun he => absurd rfl he⟩
  · obtain ⟨kind, -, heq⟩ := h.finish_eq hw
    rw [flush, heq]
    exact ⟨rfl, rfl, rfl, fun he => absurd rfl he⟩

/-! ## The four things a character does -/

/-- It lengthens the pending text. -/
theorem Pending.step_of_continues (h : s.Pending k w) (hc : continues w c) (j : Nat) :
    (s.step j c).Pending k (w ++ [c]) ∧ (s.step j c).tokens = s.tokens ∧
      (s.step j c).log = s.log := by
  have hw : w ≠ [] := by
    intro he
    subst he
    simp [continues] at hc
  obtain ⟨hholds, hact⟩ := transition_of_continues h.state hc
  have hbuffer : s.buffer.push c = String.ofList (w ++ [c]) := by
    rw [h.buffer, ← String.toList_inj]
    simp
  rcases hact with ⟨hact, hkind⟩ | ⟨kind, hact, hkind⟩
  · rw [step_of_not_closes j (by rw [hact]; rfl), follow, hact]
    exact ⟨⟨hholds, hbuffer, h.kind.trans hkind.symm, fun _ => h.start hw⟩, rfl, rfl⟩
  · rw [step_of_not_closes j (by rw [hact]; rfl), follow, hact]
    exact ⟨⟨hholds, hbuffer, hkind.symm, fun _ => h.start hw⟩, rfl, rfl⟩

/-- It shows that the pending text is over: the edge closes, and leaves what a flush leaves. -/
theorem Pending.follow_of_not_continues (h : s.Pending k w) (hw : w ≠ [])
    (hc : continues w c = false) (j : Nat) :
    (transition s.state c).action.closes ∧
      s.follow j c (transition s.state c) = s.flush := by
  have hst := h.state_ne_initial hw
  rw [transition_of_not_continues h.state hw hc]
  constructor
  · revert hst
    cases s.state <;> simp [endOfInput, Action.closes]
  · rw [follow, flush, finish]
    revert hst
    cases s.state <;> simp [endOfInput, act]

/-- The character is then read as if after the flush. -/
theorem Pending.step_of_not_continues (h : s.Pending k w) (hw : w ≠ [])
    (hc : continues w c = false) (j : Nat) : s.step j c = s.flush.step j c := by
  obtain ⟨hcloses, hflush⟩ := h.follow_of_not_continues hw hc j
  rw [step_of_closes j hcloses, hflush]
  exact (step_of_not_closes (s := s.flush) j (transition_initial_closes c)).symm

/-- It begins a lexeme where nothing is pending. -/
theorem Pending.step_open (h : s.Pending k []) (hc : isTokenChar c) (j : Nat) :
    (s.step j c).Pending j [c] ∧ (s.step j c).tokens = s.tokens ∧ (s.step j c).log = s.log := by
  obtain ⟨st, kind, hedge, hholds, hkind⟩ := openingEdge_of_isTokenChar hc
  have htr : transition s.state c = ⟨st, .start kind⟩ := by
    rw [h.state_eq_initial]
    exact hedge
  have hbuffer : s.buffer.push c = String.ofList [c] := by
    rw [h.buffer, ← String.toList_inj]
    simp
  rw [step_of_not_closes j (by rw [htr]; rfl), follow, htr]
  exact ⟨⟨hholds, hbuffer, hkind.symm, fun _ => rfl⟩, rfl, rfl⟩

/-- It is dropped where nothing is pending. -/
theorem Pending.step_skip (h : s.Pending k []) (hc : isTokenChar c = false) (j : Nat) :
    s.step j c = s.drop j c := by
  have htr : transition s.state c = ⟨.initial, .skip⟩ := by
    rw [h.state_eq_initial]
    exact openingEdge_of_not_isTokenChar hc
  have hdrop : (s.drop j c).state = .initial := by
    rw [drop]
    split <;> exact h.state_eq_initial
  rw [step_of_not_closes j (by rw [htr]; rfl), follow, htr, ← hdrop]
  rfl

theorem Pending.drop (h : s.Pending k []) (j : Nat) (c : Char) (i : Nat) :
    (s.drop j c).Pending i [] := by
  obtain ⟨log, heq⟩ := s.drop_eq j c
  rw [heq]
  exact ⟨h.state, h.buffer, h.kind, fun he => absurd rfl he⟩

/-! ## What a scan will find -/

/-- A text may be read in two parts, the second at the offset where the first ends. -/
theorem feed_append (s : Scanner) (k : Nat) (as bs : List Char) :
    s.feed k (as ++ bs) = (s.feed k as).feed (k + String.utf8Len as) bs := by
  induction as generalizing s k with
  | nil => rfl
  | cons c cs ih =>
      rw [List.cons_append, feed, feed, ih, Text.add_utf8Len_cons]

/-- **What a scan finds is the longest lexemes of the pending text and the unread one.** -/
theorem Pending.tokens_finish_feed (h : s.Pending k w) (cs : List Char) :
    (s.feed (k + String.utf8Len w) cs).finish.tokens.toList =
      s.tokens.toList ++ lexemes k (w ++ cs) := by
  induction cs generalizing s k w with
  | nil =>
      by_cases hw : w = []
      · subst hw
        rw [feed, h.finish_nil]
        simp
      · obtain ⟨kind, hk, heq⟩ := h.finish_eq hw
        rw [feed, heq, lexemes_append hk (stops_nil w)]
        simp [emit]
  | cons c cs ih =>
      -- the case of nothing pending serves twice, as a flush leads to it
      have idle : ∀ {s : Scanner} {j : Nat}, s.Pending j [] →
          (s.feed j (c :: cs)).finish.tokens.toList = s.tokens.toList ++ lexemes j (c :: cs) := by
        intro s j h
        cases hc : isTokenChar c with
        | true =>
            obtain ⟨hp, htokens, -⟩ := h.step_open hc j
            rw [feed, ← htokens, ← Text.utf8Len_singleton]
            exact ih hp
        | false =>
            obtain ⟨log, hdrop⟩ := s.drop_eq j c
            have htokens : (s.drop j c).tokens = s.tokens := by rw [hdrop]
            rw [feed, h.step_skip hc, lexemes_skip hc, ← htokens]
            exact ih (h.drop j c _)
      cases hc : continues w c with
      | true =>
          obtain ⟨hp, htokens, -⟩ := h.step_of_continues hc (k + String.utf8Len w)
          have hrun := ih hp
          rw [String.utf8Len_append, Text.utf8Len_singleton, ← Nat.add_assoc, htokens,
            List.append_assoc] at hrun
          exact hrun
      | false =>
          by_cases hw : w = []
          · subst hw
            exact idle h
          · obtain ⟨kind, hk, heq⟩ := h.finish_eq hw
            have hflush : s.flush.tokens.toList =
                s.tokens.toList ++ [.ofText kind (String.ofList w) k] := by
              rw [flush, heq]
              simp [emit]
            rw [feed, h.step_of_not_continues hw hc, ← feed, idle (h.flush_nil _), hflush,
              lexemes_append hk (by simpa using hc), List.append_assoc, List.singleton_append]

theorem tokens_scan (source : String) :
    (scan source).tokens.toList = lexemes 0 source.toList := by
  have := (pending_init 0).tokens_finish_feed source.toList
  simpa [scan] using this

end Scanner

/--
**Tokenizing is maximal munch.**

The stream of a source stands at the first of the tokens that the greedy lexer cuts the source
into: the same kinds and texts in the same order. The span of each is that of its true offset,
which is reduced modulo 2³² at either end. And these are the only tokens that describe the
lexemes of the source one after another.
-/
theorem tokenize_eq_lexemes (source : String) :
    tokenize source = .ofTokens (lexemes 0 source.toList).toArray ∧
      (∀ ts, Munched 0 source.toList ts ↔ ts = (tokenize source).tokens.toList) ∧
      ∀ (kind : TokenKind) (text : String) (k : Nat),
        (Token.ofText kind text k).span.start.toNat = k % UInt32.size ∧
        (Token.ofText kind text k).span.stop.toNat = (k + text.utf8ByteSize) % UInt32.size := by
  refine ⟨?_, ?_, ?_⟩
  · rw [tokenize, ← Scanner.tokens_scan, Array.toArray_toList]
  · intro ts
    have htokens : (tokenize source).tokens.toList = lexemes 0 source.toList :=
      Scanner.tokens_scan source
    rw [munched_iff, htokens]
  · intro kind text k
    exact ⟨Span.toNat_start_ofText text k, Span.toNat_stop_ofText text k⟩

end MiniLexer
