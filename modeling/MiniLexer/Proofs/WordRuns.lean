import MiniLexer.Proofs.Places
import Mathlib.Data.List.DropRight

/-!
# Runs of letters and digits

Letters and digits that stand together are tokenized together, and on their own. The digits that
such a run begins with are a number, what is left of it is a word (`runTokens`), and nothing
outside a run is either. The word is the keyword if it is spelled like it. What is in front of it
can only be the digits of the number, so `9int` holds the keyword and `xint` does not.

A run is cut off on both sides, because a letter or a digit bonds with nothing else
(`IsRun.lexemes_append`). Inside it a token begins at its start, and once more where its leading
digits end; anywhere else the cut would go through the word (`runTokens_append_iff`).
-/

namespace MiniLexer

open Lexeme (Spells Stops IsWord IsNumber lexemes isAlphanum_of_isAlpha)

/-- `run` is all of a run of letters and digits. -/
structure IsRun (before run after : List Char) : Prop where
  ne_nil : run ≠ []
  isAlphanum : ∀ c ∈ run, c.isAlphanum
  left : ∀ c ∈ before.getLast?, c.isAlphanum = false
  right : ∀ c ∈ after.head?, c.isAlphanum = false

/-- One token, or none where there is no text. -/
def Token.unlessEmpty (kind : TokenKind) (w : List Char) (k : Nat) : List Token :=
  if w = [] then [] else [.ofText kind (String.ofList w) k]

/-- The tokens of a run that begins at the given offset: its leading digits, and the rest. -/
def runTokens (k : Nat) (run : List Char) : List Token :=
  let digits := run.takeWhile Char.isDigit
  let word := run.dropWhile Char.isDigit
  Token.unlessEmpty .intLiteral digits k ++
    Token.unlessEmpty (.ofWord word) word (k + String.utf8Len digits)

/-- What the runs of a source say of its tokens. -/
structure WordLaw (source : String) : Prop where
  /-- A run has its own tokens, between those of the text before it and of the text after it. -/
  run : ∀ before run after, source.toList = before ++ run ++ after → IsRun before run after →
    (tokenize source).tokens.toList = tokensOf before ++ runTokens (String.utf8Len before) run ++
      (tokensOf after).map (Token.shift (String.utf8Len (before ++ run)))
  /-- A token that is no operator is one of those of a run. -/
  only : ∀ (earlier later : List Token) (t : Token),
    (tokenize source).tokens.toList = earlier ++ t :: later → t.kind.isOperator = false →
      ∃ before run after, source.toList = before ++ run ++ after ∧ IsRun before run after ∧
        ∃ front back, earlier = tokensOf before ++ front ∧
          runTokens (String.utf8Len before) run = front ++ t :: back
  /-- The keyword begins where its letters stand, with no letter or digit behind them and in front
  of them digits alone, back to the last character that is neither. -/
  keyword : ∀ before rest, source.toList = before ++ rest →
    ((∃ t : Token, t.kind = .keywordInt ∧ t.Stands before rest) ↔
      ['i', 'n', 't'] <+: rest ∧ (∀ c ∈ (rest.drop 3).head?, c.isAlphanum = false) ∧
        ∀ c ∈ before.rtakeWhile Char.isAlphanum, c.isDigit)

/-! ## A run by itself -/

@[simp] theorem Token.unlessEmpty_nil (kind : TokenKind) (k : Nat) :
    unlessEmpty kind [] k = [] := rfl

theorem Token.unlessEmpty_of_ne_nil {w : List Char} (h : w ≠ []) (kind : TokenKind) (k : Nat) :
    unlessEmpty kind w k = [.ofText kind (String.ofList w) k] := if_neg h

theorem exists_digits_append (run : List Char) : ∃ ds w, run = ds ++ w ∧
    (∀ c ∈ ds, c.isDigit) ∧ ∀ c ∈ w.head?, c.isDigit = false :=
  ⟨run.takeWhile Char.isDigit, run.dropWhile Char.isDigit,
    List.takeWhile_append_dropWhile.symm, fun _ => List.mem_takeWhile_imp,
    Lexeme.head?_dropWhile⟩

section
variable {ds w : List Char}

theorem runTokens_append (hds : ∀ c ∈ ds, c.isDigit) (hw : ∀ c ∈ w.head?, c.isDigit = false)
    (k : Nat) : runTokens k (ds ++ w) =
      Token.unlessEmpty .intLiteral ds k ++
        Token.unlessEmpty (.ofWord w) w (k + String.utf8Len ds) := by
  rw [runTokens, Lexeme.takeWhile_append_of_head hds hw, Lexeme.dropWhile_append_of_head hds hw]

theorem runTokens_digits (hds : ∀ c ∈ ds, c.isDigit) (k : Nat) :
    runTokens k ds = Token.unlessEmpty .intLiteral ds k := by
  have := runTokens_append hds (w := []) (by simp) k
  rwa [List.append_nil, Token.unlessEmpty_nil, List.append_nil] at this

theorem runTokens_word (hw : ∀ c ∈ w.head?, c.isDigit = false) (k : Nat) :
    runTokens k w = Token.unlessEmpty (.ofWord w) w k := by
  have hnil : ∀ c ∈ ([] : List Char), c.isDigit := by simp
  exact runTokens_append hnil hw k

end

theorem runTokens_ne_nil {run : List Char} (h : run ≠ []) (k : Nat) : runTokens k run ≠ [] := by
  obtain ⟨ds, w, rfl, hds, hw⟩ := exists_digits_append run
  rw [runTokens_append hds hw]
  by_cases hnil : ds = []
  · have hword : w ≠ [] := by simpa [hnil] using h
    simp [Token.unlessEmpty_of_ne_nil hword]
  · simp [Token.unlessEmpty_of_ne_nil hnil]

/-- **A run falls into tokens where its leading digits end.** Behind the first letter it does not,
as there what follows lengthens the word. -/
theorem runTokens_append_iff {as bs : List Char} (hbs : bs ≠ [])
    (hhead : ∀ c ∈ bs.head?, c.isDigit = false) (k : Nat) :
    runTokens k (as ++ bs) = runTokens k as ++ runTokens (k + String.utf8Len as) bs ↔
      ∀ c ∈ as, c.isDigit := by
  constructor
  · intro h
    obtain ⟨ds, w, rfl, hds, hw⟩ := exists_digits_append as
    by_cases hnil : w = []
    · rw [hnil, List.append_nil]
      exact hds
    · -- one token for the word, however long it is
      exfalso
      have hlonger : ∀ c ∈ (w ++ bs).head?, c.isDigit = false := by
        rwa [List.head?_append_of_ne_nil w hnil]
      have hboth : w ++ bs ≠ [] := by simp [hnil]
      rw [List.append_assoc, runTokens_append hds hlonger, runTokens_append hds hw,
        runTokens_word hhead, Token.unlessEmpty_of_ne_nil hnil, Token.unlessEmpty_of_ne_nil hbs,
        Token.unlessEmpty_of_ne_nil hboth] at h
      have hlen := congrArg List.length h
      simp only [List.length_append, List.length_cons, List.length_nil] at hlen
      omega
  · intro h
    rw [runTokens_append h hhead, runTokens_digits h, runTokens_word hhead]

theorem lexemes_word {w : List Char} (h : ∀ c ∈ w, c.isAlphanum)
    (hhead : ∀ c ∈ w.head?, c.isDigit = false) (k : Nat) :
    lexemes k w = Token.unlessEmpty (.ofWord w) w k := by
  cases w with
  | nil => simp
  | cons c cs =>
      have hc : c.isAlpha := by
        have halnum := h c (by simp)
        rw [Char.isAlphanum, hhead c rfl, Bool.or_false] at halnum
        exact halnum
      have hword : IsWord (c :: cs) := ⟨hc, fun d hd => h d (by simp [hd])⟩
      have hfound := Lexeme.lexemes_append (.word hword) (Lexeme.stops_nil _) k
      rw [List.append_nil, Lexeme.lexemes_nil] at hfound
      rw [hfound, Token.unlessEmpty_of_ne_nil (by simp)]

theorem lexemes_run {run : List Char} (h : ∀ c ∈ run, c.isAlphanum) (k : Nat) :
    lexemes k run = runTokens k run := by
  obtain ⟨ds, w, rfl, hds, hw⟩ := exists_digits_append run
  have hword := lexemes_word (fun c hc => h c (List.mem_append_right ds hc)) hw
  rw [runTokens_append hds hw]
  by_cases hnil : ds = []
  · subst hnil
    exact hword k
  · have hnum : IsNumber ds := ⟨hnil, hds⟩
    have hstops : Stops ds w := by
      intro d hd
      rw [hnum.continues]
      exact hw d hd
    rw [Lexeme.lexemes_append (.number hnum) hstops, hword, Token.unlessEmpty_of_ne_nil hnil]
    rfl

/-! ## A run among other text -/

/-- A letter or a digit bonds with its like only. -/
theorem Lexeme.bonds_eq_false {c d : Char} (h : c.isAlphanum ≠ d.isAlphanum) :
    bonds c d = false := by
  by_contra hbonds
  rw [Bool.not_eq_false, bonds, Bool.or_eq_true, Bool.and_eq_true, Bool.and_eq_true,
    decide_eq_true_eq, decide_eq_true_eq] at hbonds
  rcases hbonds with ⟨hc, hd⟩ | ⟨rfl, rfl⟩
  · exact h (hc.trans hd.symm)
  · exact h rfl

/-- A run at the end of a text. -/
theorem lexemes_append_run {before run : List Char} (hrun : ∀ c ∈ run, c.isAlphanum)
    (hleft : ∀ c ∈ before.getLast?, c.isAlphanum = false) (k : Nat) :
    lexemes k (before ++ run) =
      lexemes k before ++ runTokens (k + String.utf8Len before) run := by
  rw [← lexemes_run hrun]
  refine Lexeme.lexemes_append_of_bonds ?_ k
  intro c hc d hd
  refine Lexeme.bonds_eq_false ?_
  rw [hleft c hc, hrun d (List.mem_of_head? hd)]
  simp

/-- A run at the beginning of a text. -/
theorem lexemes_run_append {run after : List Char} (hrun : ∀ c ∈ run, c.isAlphanum)
    (hright : ∀ c ∈ after.head?, c.isAlphanum = false) (k : Nat) :
    lexemes k (run ++ after) =
      runTokens k run ++ lexemes (k + String.utf8Len run) after := by
  rw [← lexemes_run hrun]
  refine Lexeme.lexemes_append_of_bonds ?_ k
  intro c hc d hd
  refine Lexeme.bonds_eq_false ?_
  rw [hright d hd, hrun c (List.mem_of_getLast? hc)]
  simp

namespace IsRun

variable {before run after as bs : List Char}

/-- **A run is tokenized on its own.** -/
theorem lexemes_append (h : IsRun before run after) :
    lexemes 0 (before ++ run ++ after) = lexemes 0 before ++
      runTokens (String.utf8Len before) run ++
        lexemes (String.utf8Len (before ++ run)) after := by
  have hseam : ∀ c ∈ before.getLast?, ∀ d ∈ (run ++ after).head?, Lexeme.bonds c d = false := by
    intro c hc d hd
    rw [List.head?_append_of_ne_nil run h.ne_nil] at hd
    refine Lexeme.bonds_eq_false ?_
    rw [h.left c hc, h.isAlphanum d (List.mem_of_head? hd)]
    simp
  rw [List.append_assoc, Lexeme.lexemes_append_of_bonds hseam,
    lexemes_run_append h.isAlphanum h.right, Nat.zero_add, String.utf8Len_append,
    List.append_assoc]

/-- A cut inside of a run is a cut of the run. -/
theorem cut_iff (h : IsRun before (as ++ bs) after) :
    lexemes 0 (before ++ as ++ (bs ++ after)) =
        lexemes 0 (before ++ as) ++ lexemes (String.utf8Len (before ++ as)) (bs ++ after) ↔
      runTokens (String.utf8Len before) (as ++ bs) = runTokens (String.utf8Len before) as ++
        runTokens (String.utf8Len (before ++ as)) bs := by
  have hwhole := h.lexemes_append
  have has : ∀ c ∈ as, c.isAlphanum := fun c hc => h.isAlphanum c (List.mem_append_left bs hc)
  have hbs : ∀ c ∈ bs, c.isAlphanum := fun c hc => h.isAlphanum c (List.mem_append_right as hc)
  have htext : before ++ as ++ (bs ++ after) = before ++ (as ++ bs) ++ after := by simp
  have hoffset : String.utf8Len (before ++ as) + String.utf8Len bs =
      String.utf8Len (before ++ (as ++ bs)) := by
    simp [Nat.add_assoc]
  rw [htext, hwhole, lexemes_append_run has h.left, lexemes_run_append hbs h.right, hoffset,
    Nat.zero_add]
  generalize lexemes (String.utf8Len (before ++ (as ++ bs))) after = later
  rw [List.append_assoc, List.append_assoc, List.append_cancel_left_eq, ← List.append_assoc,
    List.append_cancel_right_eq]

/-- A place in front of letters and digits is in a run, which reaches back to the last character
that is neither. -/
theorem of_place (before : List Char) (hbs : bs ≠ []) (halnum : ∀ c ∈ bs, c.isAlphanum)
    (hright : ∀ c ∈ after.head?, c.isAlphanum = false) :
    IsRun (before.rdropWhile Char.isAlphanum) (before.rtakeWhile Char.isAlphanum ++ bs) after where
  ne_nil := by simp [hbs]
  isAlphanum := by
    intro c hc
    rcases List.mem_append.mp hc with hc | hc
    · exact List.mem_rtakeWhile_imp hc
    · exact halnum c hc
  left := by
    intro c hc
    obtain ⟨hne, rfl⟩ := List.mem_getLast?_eq_getLast hc
    simpa using List.rdropWhile_last_not _ _ hne
  right := hright

/-- Around a place in front of a letter or a digit there is a run. -/
theorem exists_around {rest : List Char} {c : Char} (hc : c ∈ rest.head?) (halnum : c.isAlphanum)
    (before : List Char) : ∃ front as bs after, before = front ++ as ∧ rest = bs ++ after ∧
      before.rtakeWhile Char.isAlphanum = as ∧ bs ≠ [] ∧ IsRun front (as ++ bs) after := by
  obtain ⟨cs, rfl⟩ := List.head?_eq_some_iff.mp hc
  have hbs : (c :: cs).takeWhile Char.isAlphanum ≠ [] := by simp [halnum]
  refine ⟨_, _, _, _, List.rdropWhile_append_rtakeWhile.symm,
    List.takeWhile_append_dropWhile.symm, rfl, hbs, of_place before hbs ?_ Lexeme.head?_dropWhile⟩
  intro d hd
  exact List.mem_takeWhile_imp hd

end IsRun

/-! ## A token in a run -/

/-- **A token that begins inside a run is one of the run's.** -/
theorem Token.Stands.runTokens_eq {t : Token} {front as bs after : List Char}
    (h : t.Stands (front ++ as) (bs ++ after)) (hrun : IsRun front (as ++ bs) after)
    (hbs : bs ≠ []) :
    tokensOf (front ++ as) = tokensOf front ++ runTokens (String.utf8Len front) as ∧
      runTokens (String.utf8Len front) (as ++ bs) =
        runTokens (String.utf8Len front) as ++
          runTokens (String.utf8Len (front ++ as)) bs ∧
      ∃ back, runTokens (String.utf8Len (front ++ as)) bs = t :: back := by
  obtain ⟨hcut, later, hlater⟩ := h.cut
  have has : ∀ c ∈ as, c.isAlphanum := by
    intro c hc
    exact hrun.isAlphanum c (List.mem_append_left bs hc)
  have hbsAlnum : ∀ c ∈ bs, c.isAlphanum := by
    intro c hc
    exact hrun.isAlphanum c (List.mem_append_right as hc)
  refine ⟨?_, hrun.cut_iff.mp hcut, ?_⟩
  · rw [tokensOf_eq, tokensOf_eq, lexemes_append_run has hrun.left, Nat.zero_add]
  · rw [lexemes_run_append hbsAlnum hrun.right] at hlater
    cases hfirst : runTokens (String.utf8Len (front ++ as)) bs with
    | nil => exact absurd hfirst (runTokens_ne_nil hbs _)
    | cons u back =>
        rw [hfirst] at hlater
        exact ⟨back, by rw [(List.cons.inj hlater).1]⟩

theorem Lexeme.Spells.eq_int {w : List Char} (h : Spells .keywordInt w) : w = ['i', 'n', 't'] := by
  generalize hkind : TokenKind.keywordInt = kind at h
  cases h with
  | word hw =>
      by_contra hne
      rw [TokenKind.ofWord_of_ne hne] at hkind
      simp at hkind
  | number hw => simp at hkind
  | greaterEqual => simp at hkind
  | operator hop =>
      subst hkind
      unfold TokenKind.ofOperator? at hop
      split at hop <;> simp at hop

/-- What is no operator begins with a letter or a digit. -/
theorem Lexeme.Spells.exists_head {kind : TokenKind} {w : List Char} (h : Spells kind w)
    (hkind : kind.isOperator = false) : ∃ c ∈ w.head?, c.isAlphanum := by
  cases h with
  | word hw =>
      obtain ⟨c, cs, rfl⟩ := List.exists_cons_of_ne_nil hw.ne_nil
      exact ⟨c, rfl, hw.isAlphanum c (by simp)⟩
  | number hw =>
      obtain ⟨c, cs, rfl⟩ := List.exists_cons_of_ne_nil hw.1
      exact ⟨c, rfl, Lexeme.isAlphanum_of_isDigit (hw.2 c (by simp))⟩
  | greaterEqual => simp [TokenKind.isOperator] at hkind
  | operator hop =>
      rw [TokenKind.isOperator_of_ofOperator? hop] at hkind
      simp at hkind

/-! ## Where the keyword is -/

/-- The word of its run, with the number in front of it, is what the keyword is. -/
theorem Token.Stands.keyword {t : Token} {before rest : List Char} (h : t.Stands before rest)
    (ht : t.text.toList = ['i', 'n', 't']) :
    (∀ c ∈ (rest.drop 3).head?, c.isAlphanum = false) ∧
      ∀ c ∈ before.rtakeWhile Char.isAlphanum, c.isDigit := by
  obtain ⟨more, hmore⟩ := h.text
  rw [ht] at hmore
  have hi : 'i' ∈ rest.head? := by
    rw [← hmore]
    rfl
  obtain ⟨front, as, bs, after, rfl, rfl, has, hbs, hrun⟩ :=
    IsRun.exists_around hi (by decide) before
  obtain ⟨-, hparts, back, hback⟩ := h.runTokens_eq hrun hbs
  have hhead : ∀ c ∈ bs.head?, c.isDigit = false := by
    rw [List.head?_append_of_ne_nil bs hbs] at hi
    rw [Option.mem_def.mp hi]
    simp
  -- the word is all of what follows in the run, so it is the three letters
  rw [runTokens_word hhead, Token.unlessEmpty_of_ne_nil hbs] at hback
  have htext := congrArg (fun t => t.text.toList) (List.cons.inj hback).1
  rw [Token.ofText, String.toList_ofList, ht] at htext
  have hbsInt : bs = ['i', 'n', 't'] := htext
  constructor
  · rw [hbsInt]
    exact hrun.right
  · rw [has]
    rw [String.utf8Len_append] at hparts
    exact (runTokens_append_iff hbs hhead _).mp hparts

theorem stands_keyword {before after : List Char}
    (hright : ∀ c ∈ after.head?, c.isAlphanum = false)
    (hdigits : ∀ c ∈ before.rtakeWhile Char.isAlphanum, c.isDigit) :
    (Token.ofText .keywordInt "int" (String.utf8Len before)).Stands before
      (['i', 'n', 't'] ++ after) := by
  have hint : ∀ c ∈ ['i', 'n', 't'], c.isAlphanum :=
    fun c hc => isAlphanum_of_isAlpha (Lexeme.isAlpha_of_mem_int hc)
  have hrun := IsRun.of_place before (by simp) hint hright
  have hcut := hrun.cut_iff.mpr (by
    rw [String.utf8Len_append]
    exact (runTokens_append_iff (by simp) (by simp) _).mpr hdigits)
  rw [List.rdropWhile_append_rtakeWhile] at hcut
  have hspells : Spells .keywordInt ['i', 'n', 't'] := by decide
  refine hspells.stands ?_ hcut
  intro d hd
  rw [hspells.continues_eq]
  exact hright d hd

/-! ## At the top -/

/--
**The words, numbers and keywords of a source are those of its runs of letters and digits.**

Each run has a number for its leading digits and a word for the rest. So whether `int` is the
keyword is decided by what is in front of it, back to the beginning of its run, and by the one
character behind it.
-/
theorem wordLaw_tokenize (source : String) : WordLaw source where
  run := by
    intro before run after hsource hrun
    have hshift := Lexeme.lexemes_shift 0 (String.utf8Len (before ++ run)) after
    rw [← tokensOf_toList, hsource, tokensOf_eq, hrun.lexemes_append, tokensOf_eq, tokensOf_eq,
      ← hshift, Nat.zero_add]
  only := by
    intro earlier later t htokens hkind
    obtain ⟨before, after, hsource, rfl, hstands, hk, -⟩ := exists_stands htokens
    obtain ⟨c, hc, halnum⟩ := hk.exists_head hkind
    have hhead : c ∈ (t.text.toList ++ after).head? := by
      rwa [List.head?_append_of_ne_nil _ hk.ne_nil]
    obtain ⟨front, as, bs, after', rfl, hrest, -, hbs, hrun⟩ :=
      IsRun.exists_around hhead halnum before
    rw [hrest] at hsource hstands
    obtain ⟨hearlier, hparts, back, hback⟩ := hstands.runTokens_eq hrun hbs
    refine ⟨front, as ++ bs, after', ?_, hrun, _, back, hearlier, ?_⟩
    · rw [hsource]
      simp
    · rw [hparts, hback]
  keyword := by
    intro before rest hsource
    constructor
    · rintro ⟨t, hkind, hstands⟩
      obtain ⟨later, hfound⟩ := hstands.found
      rw [← hsource, tokensOf_toList] at hfound
      obtain ⟨-, -, -, -, -, hk, -⟩ := exists_stands hfound
      have ht := (hkind ▸ hk).eq_int
      exact ⟨ht ▸ hstands.text, hstands.keyword ht⟩
    · rintro ⟨⟨after, rfl⟩, hright, hdigits⟩
      exact ⟨_, rfl, stands_keyword hright hdigits⟩

end MiniLexer
