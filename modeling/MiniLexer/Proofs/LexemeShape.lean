import MiniLexer.Lexeme
import Mathlib.Data.List.TakeWhile

/-!
# What the longest lexeme is

`Lexeme.longest?` finds a lexeme by looking for its end. This file says what it finds without
saying how. A text is a lexeme of a kind when it has one of four shapes (`Spells`), and it is
over where the next character would not continue it (`Stops`). The longest lexeme at the head
of a text is then the one lexeme there that is over where it ends
(`longest?_eq_some_iff`), and there is none exactly when the first character belongs to no
lexeme (`longest?_eq_none_iff`).

With that, `lexemes` has two equations: it drops a character that belongs to no lexeme, and
it cuts off a lexeme that is over. Nothing below unfolds it again.

What the tokens of a text are can be said without a function, and without the constructor that
the scanner makes tokens with: `Token.Describes` spells out what a token has to say of a lexeme,
and `Lexeme.Munched` goes through a text lexeme by lexeme. The tokens that `lexemes` gives are
the only ones of that relation (`munched_iff`).
-/

namespace MiniLexer

/-- Whether a character right after a lexeme of this kind would become part of it. -/
def TokenKind.continuedBy (kind : TokenKind) (c : Char) : Bool :=
  match kind with
  | .identifier | .keywordInt => c.isAlphanum
  | .intLiteral => c.isDigit
  | .greater => c = '='
  | _ => false

/-- What a token has to say of the lexeme `w` at byte `k`. -/
structure Token.Describes (t : Token) (kind : TokenKind) (w : List Char) (k : Nat) : Prop where
  kind_eq : t.kind = kind
  text_eq : t.text.toList = w
  /-- It begins at byte `k`. -/
  start_eq : t.span.start.toNat = k % UInt32.size
  /-- It ends behind its own bytes. -/
  stop_eq : t.span.stop.toNat = (k + String.utf8Len w) % UInt32.size

theorem Token.describes_iff {t : Token} {kind : TokenKind} {w : List Char} {k : Nat} :
    t.Describes kind w k ↔ t = .ofText kind (String.ofList w) k := by
  have hstart := Span.toNat_start_ofText (String.ofList w) k
  have hstop := Span.toNat_stop_ofText (String.ofList w) k
  rw [String.utf8ByteSize_ofList] at hstop
  constructor
  · rintro ⟨rfl, htext, hbegin, hend⟩
    obtain ⟨kind, text, start, stop⟩ := t
    obtain rfl : text = String.ofList w := by rw [← htext, String.ofList_toList]
    obtain rfl := UInt32.toNat_inj.mp (hbegin.trans hstart.symm)
    obtain rfl := UInt32.toNat_inj.mp (hend.trans hstop.symm)
    rfl
  · rintro rfl
    exact ⟨rfl, String.toList_ofList, hstart, hstop⟩

namespace Lexeme

/-- A letter, then letters and digits. -/
def IsWord : List Char → Prop
  | [] => False
  | c :: cs => c.isAlpha ∧ ∀ d ∈ cs, d.isAlphanum

/-- One digit or more. -/
def IsNumber (w : List Char) : Prop := w ≠ [] ∧ ∀ d ∈ w, d.isDigit

/-- `Spells kind w`: a lexeme of this kind may have the text `w`. -/
inductive Spells : TokenKind → List Char → Prop where
  | word {w : List Char} : IsWord w → Spells (.ofWord w) w
  | number {w : List Char} : IsNumber w → Spells .intLiteral w
  | greaterEqual : Spells .greaterEqual ['>', '=']
  | operator {c : Char} {kind : TokenKind} :
      TokenKind.ofOperator? c = some kind → Spells kind [c]

/-- The lexeme `w` does not reach into the text that follows it. -/
def Stops (w rest : List Char) : Prop := ∀ d ∈ rest.head?, continues w d = false

@[simp] theorem stops_nil (w : List Char) : Stops w [] := by simp [Stops]

@[simp] theorem stops_cons (w cs : List Char) (c : Char) :
    Stops w (c :: cs) ↔ continues w c = false := by
  simp [Stops]

/-- `Munched k cs ts`: the text `cs`, which begins at byte `k`, has the tokens `ts`. A character
that belongs to no lexeme is dropped, and a lexeme that is over is described. -/
inductive Munched : Nat → List Char → List Token → Prop where
  | nil (k : Nat) : Munched k [] []
  | skip {k : Nat} {c : Char} {cs : List Char} {ts : List Token} :
      isTokenChar c = false → Munched (k + c.utf8Size) cs ts → Munched k (c :: cs) ts
  | take {k : Nat} {kind : TokenKind} {w rest : List Char} {t : Token} {ts : List Token} :
      Spells kind w → Stops w rest → t.Describes kind w k →
      Munched (k + String.utf8Len w) rest ts → Munched k (w ++ rest) (t :: ts)

/-! ## Classes of characters -/

theorem isAlphanum_of_isAlpha {c : Char} (h : c.isAlpha) : c.isAlphanum := by
  simp [Char.isAlphanum, h]

theorem isAlphanum_of_isDigit {c : Char} (h : c.isDigit) : c.isAlphanum := by
  simp [Char.isAlphanum, h]

theorem isAlpha_of_isDigit {c : Char} (h : c.isDigit) : c.isAlpha = false := by
  unfold Char.isDigit at h
  unfold Char.isAlpha Char.isUpper Char.isLower
  simp only [Bool.and_eq_true, decide_eq_true_eq, ge_iff_le, UInt32.le_iff_toNat_le] at h
  simp only [Bool.or_eq_false_iff, Bool.and_eq_false_iff, decide_eq_false_iff_not, ge_iff_le,
    UInt32.le_iff_toNat_le]
  -- the digits come before the letters of either case
  have h9 : '9'.val.toNat < 'A'.val.toNat ∧ '9'.val.toNat < 'a'.val.toNat := by decide
  omega

theorem isDigit_of_isAlpha {c : Char} (h : c.isAlpha) : c.isDigit = false := by
  by_contra hdigit
  rw [isAlpha_of_isDigit (by simpa using hdigit)] at h
  simp at h

/-- The keyword is spelled with letters. -/
theorem isAlpha_of_mem_int {c : Char} (h : c ∈ ['i', 'n', 't']) : c.isAlpha := by
  simp only [List.mem_cons, List.not_mem_nil, or_false] at h
  rcases h with rfl | rfl | rfl <;> rfl

theorem isAlphanum_of_ofOperator? {c : Char} {kind : TokenKind}
    (h : TokenKind.ofOperator? c = some kind) : c.isAlphanum = false := by
  unfold TokenKind.ofOperator? at h
  split at h
  all_goals first | decide | exact absurd h (by simp)

theorem not_mem_of_isTokenChar {w : List Char} (h : ∀ d ∈ w, isTokenChar d) {c : Char}
    (hc : isTokenChar c = false) : c ∉ w := by
  intro hmem
  rw [h c hmem] at hc
  simp at hc

theorem continues_of_not_isTokenChar {c : Char} (h : isTokenChar c = false) (w : List Char) :
    continues w c = false := by
  simp only [isTokenChar, Char.isAlphanum, Bool.or_eq_false_iff] at h
  obtain ⟨⟨halpha, hdigit⟩, hop⟩ := h
  have heq : c ≠ '=' := by
    intro he
    subst he
    exact absurd hop (by decide)
  cases w with
  | nil => rfl
  | cons d w => simp [continues, Char.isAlphanum, halpha, hdigit, heq]

/-! ## The four shapes -/

theorem IsWord.ne_nil {w : List Char} (h : IsWord w) : w ≠ [] := by
  intro he
  subst he
  exact h

theorem IsWord.concat {w : List Char} {c : Char} (h : IsWord w) (hc : c.isAlphanum) :
    IsWord (w ++ [c]) := by
  cases w with
  | nil => exact absurd rfl h.ne_nil
  | cons d ds =>
      refine ⟨h.1, ?_⟩
      intro e he
      rcases List.mem_append.mp he with he | he
      · exact h.2 e he
      · rw [List.mem_singleton.mp he]
        exact hc

theorem IsNumber.concat {w : List Char} {c : Char} (h : IsNumber w) (hc : c.isDigit) :
    IsNumber (w ++ [c]) := by
  refine ⟨by simp, ?_⟩
  intro e he
  rcases List.mem_append.mp he with he | he
  · exact h.2 e he
  · rw [List.mem_singleton.mp he]
    exact hc

theorem IsWord.continues {w : List Char} (h : IsWord w) (d : Char) :
    continues w d = d.isAlphanum := by
  cases w with
  | nil => exact absurd h (by simp [IsWord])
  | cons c cs => simp [Lexeme.continues, h.1]

theorem IsNumber.continues {w : List Char} (h : IsNumber w) (d : Char) :
    continues w d = d.isDigit := by
  cases w with
  | nil => exact absurd rfl h.1
  | cons c cs =>
      have hc : c.isDigit := h.2 c (by simp)
      simp [Lexeme.continues, hc, isAlpha_of_isDigit hc]

theorem continues_operator {c : Char} {kind : TokenKind}
    (h : TokenKind.ofOperator? c = some kind) (d : Char) :
    continues [c] d = (c = '>' && d = '=') := by
  have hc := isAlphanum_of_ofOperator? h
  simp only [Char.isAlphanum, Bool.or_eq_false_iff] at hc
  simp [continues, hc.1, hc.2]

theorem Spells.ne_nil {kind : TokenKind} {w : List Char} (h : Spells kind w) : w ≠ [] := by
  cases h with
  | word hw => exact hw.ne_nil
  | number hw => exact hw.1
  | greaterEqual => simp
  | operator => simp

theorem Spells.isTokenChar {kind : TokenKind} {w : List Char} (h : Spells kind w) :
    ∀ d ∈ w, isTokenChar d := by
  intro d hd
  simp only [Lexeme.isTokenChar, Bool.or_eq_true]
  cases h with
  | word hw =>
      cases w with
      | nil => simp at hd
      | cons c cs =>
          rcases List.mem_cons.mp hd with rfl | hd
          · exact Or.inl (isAlphanum_of_isAlpha hw.1)
          · exact Or.inl (hw.2 d hd)
  | number hw => exact Or.inl (isAlphanum_of_isDigit (hw.2 d hd))
  | greaterEqual =>
      refine Or.inr ?_
      simp only [List.mem_cons, List.not_mem_nil, or_false] at hd
      rcases hd with rfl | rfl <;> rfl
  | operator hop =>
      rw [List.mem_singleton.mp hd]
      exact Or.inr (by simp [hop])

/-- A shorter lexeme is continued by what makes it longer. -/
theorem Spells.continues_prefix {kind : TokenKind} {w more : List Char} {d : Char}
    (h : Spells kind (w ++ d :: more)) (hw : w ≠ []) : continues w d := by
  obtain ⟨c, cs, rfl⟩ := List.exists_cons_of_ne_nil hw
  generalize htext : (c :: cs) ++ d :: more = text at h
  cases h with
  | word hword =>
      subst htext
      have hd : d.isAlphanum := hword.2 d (by simp)
      simp [Lexeme.continues, hword.1, hd]
  | number hnum =>
      subst htext
      have hc : c.isDigit := hnum.2 c (by simp)
      have hd : d.isDigit := hnum.2 d (by simp)
      simp [Lexeme.continues, hc, isAlpha_of_isDigit hc, hd]
  | greaterEqual =>
      -- two characters, so the shorter one is `>` alone
      cases cs with
      | nil =>
          obtain ⟨rfl, rfl, -⟩ := by simpa using htext
          decide
      | cons e es => simp at htext
  | operator => simp at htext

theorem Spells.continues_eq {kind : TokenKind} {w : List Char} (h : Spells kind w) (d : Char) :
    continues w d = kind.continuedBy d := by
  cases h with
  | word hw =>
      rw [hw.continues, TokenKind.ofWord]
      split <;> rfl
  | number hw => exact hw.continues d
  | greaterEqual => rfl
  | operator hop =>
      rw [continues_operator hop]
      unfold TokenKind.ofOperator? at hop
      split at hop
      case h_10 => simp at hop
      all_goals
        obtain rfl := Option.some.inj hop
        simp [TokenKind.continuedBy]

/-! ## Finding the longest lexeme -/

theorem takeWhile_append_of_head {p : Char → Bool} {as bs : List Char}
    (ha : ∀ d ∈ as, p d) (hb : ∀ d ∈ bs.head?, p d = false) :
    (as ++ bs).takeWhile p = as := by
  rw [List.takeWhile_append_of_pos ha]
  cases bs with
  | nil => simp
  | cons b bs => simp [hb b (by simp)]

theorem dropWhile_append_of_head {p : Char → Bool} {as bs : List Char}
    (ha : ∀ d ∈ as, p d) (hb : ∀ d ∈ bs.head?, p d = false) :
    (as ++ bs).dropWhile p = bs := by
  rw [List.dropWhile_append_of_pos ha]
  cases bs with
  | nil => rfl
  | cons b bs => simp [hb b (by simp)]

theorem head?_dropWhile {p : Char → Bool} {cs : List Char} :
    ∀ d ∈ (cs.dropWhile p).head?, p d = false := by
  intro d hd
  have := List.head?_dropWhile_not p cs
  rw [Option.mem_def.mp hd] at this
  exact this

theorem of_longest? {c : Char} {cs tail rest : List Char} {kind : TokenKind}
    (h : longest? c cs = some (kind, tail, rest)) :
    cs = tail ++ rest ∧ Spells kind (c :: tail) ∧ Stops (c :: tail) rest := by
  unfold longest? at h
  split at h
  · rename_i hc
    obtain ⟨rfl, rfl, rfl⟩ := by simpa using h
    have hword : IsWord (c :: cs.takeWhile Char.isAlphanum) :=
      ⟨hc, fun d hd => List.mem_takeWhile_imp hd⟩
    refine ⟨List.takeWhile_append_dropWhile.symm, .word hword, ?_⟩
    intro d hd
    rw [hword.continues]
    exact head?_dropWhile d hd
  · split at h
    · rename_i hc
      obtain ⟨rfl, rfl, rfl⟩ := by simpa using h
      have hnum : IsNumber (c :: cs.takeWhile Char.isDigit) := by
        refine ⟨by simp, ?_⟩
        intro d hd
        rcases List.mem_cons.mp hd with hd | hd
        · subst hd
          exact hc
        · exact List.mem_takeWhile_imp hd
      refine ⟨List.takeWhile_append_dropWhile.symm, .number hnum, ?_⟩
      intro d hd
      rw [hnum.continues]
      exact head?_dropWhile d hd
    · split at h
      · obtain ⟨rfl, rfl, rfl⟩ := by simpa using h
        exact ⟨rfl, .greaterEqual, fun d _ => by simp [continues]⟩
      · -- an operator of one character, and not a `>` before `=`
        rename_i hne
        obtain ⟨kind', hop, heq⟩ := Option.map_eq_some_iff.mp h
        obtain ⟨hkind, htail, hrest⟩ : kind' = kind ∧ [] = tail ∧ cs = rest := by
          rw [Prod.mk.injEq, Prod.mk.injEq] at heq
          exact heq
        subst hkind htail hrest
        refine ⟨rfl, .operator hop, ?_⟩
        intro d hd
        rw [continues_operator hop]
        obtain ⟨ds, hds⟩ := List.head?_eq_some_iff.mp hd
        by_cases hc : c = '>'
        · have hd' : d ≠ '=' := by
            intro he
            subst hc he
            exact hne ds rfl hds
          simp [hd']
        · simp [hc]

theorem longest?_of_spells {c : Char} {tail rest : List Char} {kind : TokenKind}
    (h : Spells kind (c :: tail)) (hs : Stops (c :: tail) rest) :
    longest? c (tail ++ rest) = some (kind, tail, rest) := by
  generalize htext : c :: tail = text at h
  cases h with
  | word hword =>
      subst htext
      have hrest : ∀ d ∈ rest.head?, d.isAlphanum = false := by
        intro d hd
        rw [← hword.continues]
        exact hs d hd
      unfold longest?
      rw [if_pos hword.1]
      rw [takeWhile_append_of_head hword.2 hrest, dropWhile_append_of_head hword.2 hrest]
  | number hnum =>
      subst htext
      have hc : c.isDigit := hnum.2 c (by simp)
      have htail : ∀ d ∈ tail, d.isDigit := by
        intro d hd
        exact hnum.2 d (by simp [hd])
      have hrest : ∀ d ∈ rest.head?, d.isDigit = false := by
        intro d hd
        rw [← hnum.continues]
        exact hs d hd
      unfold longest?
      rw [if_neg (by simp [isAlpha_of_isDigit hc]), if_pos hc]
      rw [takeWhile_append_of_head htail hrest, dropWhile_append_of_head htail hrest]
  | greaterEqual =>
      obtain ⟨rfl, rfl⟩ := List.cons.inj htext
      rfl
  | @operator o kind hop =>
      obtain ⟨rfl, rfl⟩ := List.cons.inj htext
      have hc := isAlphanum_of_ofOperator? hop
      simp only [Char.isAlphanum, Bool.or_eq_false_iff] at hc
      unfold longest?
      rw [if_neg (by simp [hc.1]), if_neg (by simp [hc.2])]
      split
      · -- a `>` before `=` is not over
        rename_i rest' heq
        have := hs '=' (by simp [show rest = '=' :: rest' by simpa using heq])
        exact absurd this (by decide)
      · simp [hop]

/-- **The longest lexeme is the one that is over where it ends.** -/
theorem longest?_eq_some_iff {c : Char} {cs tail rest : List Char} {kind : TokenKind} :
    longest? c cs = some (kind, tail, rest) ↔
      cs = tail ++ rest ∧ Spells kind (c :: tail) ∧ Stops (c :: tail) rest := by
  constructor
  · exact of_longest?
  · intro h
    obtain ⟨hcs, hk, hs⟩ := h
    rw [hcs]
    exact longest?_of_spells hk hs

/-- No lexeme begins with a character that belongs to none, and one begins with every other. -/
theorem longest?_eq_none_iff {c : Char} {cs : List Char} :
    longest? c cs = none ↔ isTokenChar c = false := by
  constructor
  · intro h
    unfold longest? at h
    simp only [isTokenChar, Char.isAlphanum, Bool.or_eq_false_iff]
    split at h
    · simp at h
    · split at h
      · simp at h
      · split at h
        · simp at h
        · simp_all
  · intro h
    cases hl : longest? c cs with
    | none => rfl
    | some found =>
        obtain ⟨kind, tail, rest⟩ := found
        have hk := (of_longest? hl).2.1
        rw [hk.isTokenChar c (by simp)] at h
        simp at h

theorem kind?_eq_some_iff {kind : TokenKind} {w : List Char} :
    kind? w = some kind ↔ Spells kind w := by
  cases w with
  | nil => exact ⟨fun h => by simp [kind?] at h, fun h => absurd rfl h.ne_nil⟩
  | cons c cs =>
      constructor
      · intro h
        unfold kind? at h
        dsimp only at h
        split at h
        · rename_i kind' tail heq
          obtain ⟨hcs, hk, -⟩ := of_longest? heq
          rw [List.append_nil] at hcs
          rw [hcs, ← Option.some.inj h]
          exact hk
        · simp at h
      · intro h
        have := longest?_of_spells h (stops_nil _)
        rw [List.append_nil] at this
        simp [kind?, this]

theorem Spells.unique {kind kind' : TokenKind} {w : List Char}
    (h : Spells kind w) (h' : Spells kind' w) : kind = kind' := by
  have hk := kind?_eq_some_iff.mpr h
  rw [kind?_eq_some_iff.mpr h'] at hk
  exact (Option.some.inj hk).symm

instance (kind : TokenKind) (w : List Char) : Decidable (Spells kind w) :=
  decidable_of_iff (kind? w = some kind) kind?_eq_some_iff

/--
**A lexeme that is not over is the head of a longer one.**

The longest lexeme there cannot be shorter, as it would be continued by what the shorter one
leaves of `w`, and it cannot be `w`, which is not over.
-/
theorem Spells.exists_longer {kind : TokenKind} {w cs : List Char} {d : Char}
    (h : Spells kind w) (hd : continues w d) :
    ∃ kind' more rest, d :: cs = more ++ rest ∧ more ≠ [] ∧
      Spells kind' (w ++ more) ∧ Stops (w ++ more) rest := by
  obtain ⟨c, tail, rfl⟩ := List.exists_cons_of_ne_nil h.ne_nil
  cases hl : longest? c (tail ++ d :: cs) with
  | none =>
      have hc := h.isTokenChar c (by simp)
      rw [longest?_eq_none_iff.mp hl] at hc
      simp at hc
  | some found =>
      obtain ⟨kind', tail', rest⟩ := found
      obtain ⟨heq, hk, hs⟩ := of_longest? hl
      rcases List.append_eq_append_iff.mp heq with ⟨more, rfl, hmore⟩ | ⟨left, rfl, hleft⟩
      · refine ⟨kind', more, rest, hmore, ?_, hk, hs⟩
        intro hnil
        subst hnil
        rw [List.append_nil] at hs
        rw [← show d :: cs = rest from hmore, stops_cons, hd] at hs
        simp at hs
      · -- the longest one would be `w` or shorter
        exfalso
        cases left with
        | nil =>
            rw [List.append_nil] at hd
            rw [show rest = d :: cs from hleft, stops_cons, hd] at hs
            simp at hs
        | cons e left =>
            rw [show rest = e :: (left ++ d :: cs) from hleft, stops_cons] at hs
            rw [← List.cons_append] at h
            rw [h.continues_prefix (by simp)] at hs
            simp at hs

/-! ## Cutting a text -/

@[simp] theorem lexemes_nil (k : Nat) : lexemes k [] = [] := by rw [lexemes]

theorem lexemes_skip {c : Char} (h : isTokenChar c = false) (k : Nat) (cs : List Char) :
    lexemes k (c :: cs) = lexemes (k + c.utf8Size) cs := by
  rw [lexemes]
  split
  · rename_i heq
    rw [longest?_eq_none_iff.mpr h] at heq
    simp at heq
  · rfl

theorem lexemes_skip_all {gap : List Char} (h : ∀ c ∈ gap, isTokenChar c = false) (k : Nat)
    (cs : List Char) : lexemes k (gap ++ cs) = lexemes (k + String.utf8Len gap) cs := by
  induction gap generalizing k with
  | nil => simp
  | cons c gap ih =>
      rw [List.cons_append, lexemes_skip (h c (by simp)), ih (fun d hd => h d (by simp [hd])),
        Text.add_utf8Len_cons]

/-- A lexeme that is over becomes a token, and the rest is cut on its own. -/
theorem lexemes_append {kind : TokenKind} {w rest : List Char} (h : Spells kind w)
    (hs : Stops w rest) (k : Nat) :
    lexemes k (w ++ rest) =
      .ofText kind (String.ofList w) k :: lexemes (k + String.utf8Len w) rest := by
  obtain ⟨c, tail, rfl⟩ := List.exists_cons_of_ne_nil h.ne_nil
  have hl := longest?_of_spells h hs
  rw [List.cons_append, lexemes]
  split
  · rename_i heq
    obtain ⟨rfl, rfl, rfl⟩ := by simpa using hl.symm.trans heq
    rfl
  · rename_i heq
    rw [hl] at heq
    simp at heq

/-- **A text is taken apart from its head.** There it has a character that belongs to no lexeme, or
a lexeme that is over. -/
@[elab_as_elim]
theorem text_induction {motive : List Char → Prop} (nil : motive [])
    (skip : ∀ (c : Char) (cs : List Char), isTokenChar c = false → motive cs → motive (c :: cs))
    (take : ∀ (kind : TokenKind) (w rest : List Char), Spells kind w → Stops w rest →
      motive rest → motive (w ++ rest)) (cs : List Char) : motive cs := by
  induction hn : cs.length using Nat.strongRecOn generalizing cs with
  | ind n ih =>
    cases cs with
    | nil => exact nil
    | cons c cs =>
        cases hl : longest? c cs with
        | none =>
            have hlt : cs.length < n := by
              rw [← hn, List.length_cons]
              omega
            exact skip c cs (longest?_eq_none_iff.mp hl) (ih cs.length hlt cs rfl)
        | some found =>
            obtain ⟨kind, tail, rest⟩ := found
            obtain ⟨rfl, hk, hs⟩ := of_longest? hl
            have hlt : rest.length < n := by
              rw [← hn, List.length_cons, List.length_append]
              omega
            exact take kind (c :: tail) rest hk hs (ih rest.length hlt rest rfl)

theorem munched_lexemes (k : Nat) (cs : List Char) : Munched k cs (lexemes k cs) := by
  induction cs using text_induction generalizing k with
  | nil =>
      rw [lexemes_nil]
      exact .nil k
  | skip c cs hc ih =>
      rw [lexemes_skip hc]
      exact .skip hc (ih _)
  | take kind w rest hk hs ih =>
      rw [lexemes_append hk hs]
      exact .take hk hs (Token.describes_iff.mpr rfl) (ih _)

/-- **A text has no other tokens than these.** -/
theorem munched_iff {k : Nat} {cs : List Char} {ts : List Token} :
    Munched k cs ts ↔ ts = lexemes k cs := by
  constructor
  · intro h
    induction h with
    | nil k => exact (lexemes_nil k).symm
    | skip hc _ ih => rw [lexemes_skip hc, ih]
    | take hk hs ht _ ih => rw [lexemes_append hk hs, ← ih, Token.describes_iff.mp ht]
  · rintro rfl
    exact munched_lexemes k cs

end Lexeme

end MiniLexer
