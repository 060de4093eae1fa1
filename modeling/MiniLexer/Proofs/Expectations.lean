import MiniLexer.Proofs.ZipperView
import Mathlib.Order.Bounds.Basic

/-!
# What an expectation leaves behind

A parser that knows what comes next expects one kind after another. It is given the tokens ahead
for as long as they are of these kinds (`agreement`), and the first that is not is refused. What
has been read by then stays read, and the refusal itself leaves nothing behind: the cursor stands
where it would stand if the tokens had just been read (`Expects`).

That a refusal can be left out holds in any conversation with a stream, not only of the last
question. It moves no cursor, so the question behind it is put to the same stream as the refused
one (`answer_of_refused`), and so on to the end (`run_kept`).
-/

namespace MiniLexer.TokenStream

/-- Expects one kind after another, until one is refused. -/
def expectAll (s : TokenStream) : List TokenKind → List (Except Error Token) × TokenStream
  | [] => ([], s)
  | kind :: kinds =>
    match s.expect kind with
    | (.ok t, rest) =>
      let (answers, last) := rest.expectAll kinds
      (.ok t :: answers, last)
    | (.error e, rest) => ([.error e], rest)

/-- How many of the kinds the tokens agree with, one by one. -/
def agreement : List TokenKind → List Token → Nat
  | kind :: kinds, t :: ts => if t.kind = kind then agreement kinds ts + 1 else 0
  | _, _ => 0

/-- What is left of a list when only its marked members are kept. -/
def kept {α : Type} (marks : List Bool) (l : List α) : List α :=
  ((marks.zip l).filter Prod.fst).map Prod.snd

/-- What comes of expecting these kinds if the first `n` of them, and no more, are met. -/
structure Expects (s : TokenStream) (kinds : List TokenKind) (n : Nat) : Prop where
  /-- `n` is the length of the longest common prefix of the kinds and those ahead. -/
  longest : IsGreatest {m | m ≤ kinds.length ∧
    kinds.take m <+: (s.tokens.toList.drop s.position).map Token.kind} n
  inBounds : s.position + n ≤ s.size
  /-- The cursor moves past the tokens that are met. -/
  moved : (s.expectAll kinds).2 = { s with position := s.position + n }
  /-- It is moved as it is by reading them. -/
  moved_eq : (s.expectAll kinds).2 = (s.run (List.replicate n .read)).2
  /-- Either all kinds are met and the tokens are given in their order. -/
  met : n = kinds.length → (s.expectAll kinds).1 =
    ((s.tokens.toList.drop s.position).take n).map .ok
  /-- Or the first that is not finds a token of another kind, and the error stands there. -/
  refused : ∀ kind t, kinds[n]? = some kind → s.tokens[s.position + n]? = some t →
    (s.expectAll kinds).1 = ((s.tokens.toList.drop s.position).take n).map .ok ++
      [.error ⟨.unexpectedToken t.text kind, t.span.start⟩]
  /-- Or it finds no token, and the error stands where the last token of all ends. -/
  ended : ∀ kind, kinds[n]? = some kind → s.position + n = s.size →
    (s.expectAll kinds).1 = ((s.tokens.toList.drop s.position).take n).map .ok ++
      [.error ⟨.unexpectedEnd kind, (s.tokens.back?.map (·.span.stop)).getD 0⟩]

/-- What can be relied on when a stream is asked for tokens of given kinds. -/
structure ExpectLaws (s : TokenStream) : Prop where
  expects : ∀ kinds, Expects s kinds (agreement kinds (s.tokens.toList.drop s.position))
  /-- Whichever refusals are deleted from a conversation, the rest of it is as it was. -/
  deleted : ∀ (ops : List Op) (marks : List Bool), marks.length = ops.length →
    (∀ i : Nat, marks[i]? = some false → ∃ e n, (s.run ops).1[i]? = some (Answer.refused e, n)) →
      s.run (kept marks ops) = (kept marks (s.run ops).1, (s.run ops).2)

/-! ## How far the tokens agree -/

section
variable {kinds : List TokenKind} {ts : List Token} {kind : TokenKind} {t : Token}

theorem agreement_cons_of_eq (h : t.kind = kind) :
    agreement (kind :: kinds) (t :: ts) = agreement kinds ts + 1 := if_pos h

theorem agreement_cons_of_ne (h : ∀ t ∈ ts.head?, t.kind ≠ kind) :
    agreement (kind :: kinds) ts = 0 := by
  cases ts with
  | nil => rfl
  | cons t ts => exact if_neg (h t rfl)

@[simp] theorem agreement_nil (ts : List Token) : agreement [] ts = 0 := by
  simp [agreement]

theorem agreement_spec (kinds : List TokenKind) (ts : List Token) :
    agreement kinds ts ≤ kinds.length ∧
      kinds.take (agreement kinds ts) <+: ts.map Token.kind := by
  fun_induction agreement kinds ts with
  | case1 kinds t ts ih =>
      obtain ⟨hle, hpre⟩ := ih
      refine ⟨Nat.succ_le_succ hle, ?_⟩
      rw [List.take_succ_cons, List.map_cons, List.cons_prefix_cons]
      exact ⟨rfl, hpre⟩
  | case2 => simp
  | case3 => simp

theorem le_agreement {m : Nat} (hm : m ≤ kinds.length)
    (h : kinds.take m <+: ts.map Token.kind) : m ≤ agreement kinds ts := by
  fun_induction agreement kinds ts generalizing m with
  | case1 kinds t ts ih =>
      cases m with
      | zero => exact Nat.zero_le _
      | succ m =>
          rw [List.take_succ_cons, List.map_cons, List.cons_prefix_cons] at h
          exact Nat.succ_le_succ (ih (Nat.le_of_succ_le_succ hm) h.2)
  | case2 kind kinds t ts hne =>
      cases m with
      | zero => exact Nat.le_refl _
      | succ m =>
          rw [List.take_succ_cons, List.map_cons, List.cons_prefix_cons] at h
          exact absurd h.1.symm hne
  | case3 kinds ts hnil =>
      cases m with
      | zero => exact Nat.le_refl _
      | succ m =>
          have hpos := Nat.lt_of_lt_of_le m.succ_pos hm
          obtain ⟨kind, kinds, rfl⟩ := List.exists_cons_of_length_pos hpos
          cases ts with
          | nil => simp at h
          | cons t ts => exact absurd rfl (hnil kind kinds t ts rfl)

/-- The agreement is the length of the longest common prefix. -/
theorem isGreatest_agreement (kinds : List TokenKind) (ts : List Token) :
    IsGreatest {m | m ≤ kinds.length ∧ kinds.take m <+: ts.map Token.kind}
      (agreement kinds ts) :=
  ⟨agreement_spec kinds ts, fun _ h => le_agreement h.1 h.2⟩

theorem agreement_le_length (kinds : List TokenKind) (ts : List Token) :
    agreement kinds ts ≤ ts.length := by
  obtain ⟨hle, hpre⟩ := agreement_spec kinds ts
  have hlen := hpre.length_le
  rwa [List.length_take, Nat.min_eq_left hle, List.length_map] at hlen

/-- The agreement ends where the kinds differ. -/
theorem kind_ne_of_agreement (hkind : kinds[agreement kinds ts]? = some kind)
    (ht : ts[agreement kinds ts]? = some t) : t.kind ≠ kind := by
  fun_induction agreement kinds ts with
  | case1 kinds t ts ih => exact ih hkind ht
  | case2 kind kinds t ts hne =>
      obtain rfl := Option.some.inj hkind
      obtain rfl := Option.some.inj ht
      exact hne
  | case3 kinds ts hnil =>
      cases kinds with
      | nil => simp at hkind
      | cons kind kinds =>
          cases ts with
          | nil => simp at ht
          | cons t ts => exact absurd rfl (hnil kind kinds t ts rfl)

end

/-! ## Expecting one kind -/

section
variable {s rest : TokenStream} {kind : TokenKind}

theorem of_expect_ok {t : Token} (h : s.expect kind = (.ok t, rest)) :
    t.kind = kind ∧ s.next? = some (t, rest) := by
  unfold expect at h
  cases hpeek : s.peek with
  | none => simp [hpeek] at h
  | some u =>
      by_cases hkind : u.kind = kind
      · simp only [hpeek, if_pos hkind, Prod.mk.injEq, Except.ok.injEq] at h
        obtain ⟨rfl, rfl⟩ := h
        exact ⟨hkind, by rw [next?, hpeek, Option.map_some]⟩
      · simp [hpeek, hkind] at h

/-- A refusal moves nothing. -/
theorem of_expect_error {e : Error} (h : s.expect kind = (.error e, rest)) :
    rest = s ∧ ∀ t ∈ s.toZipper.ahead.head?, t.kind ≠ kind := by
  rw [← peek_eq_head?]
  unfold expect at h
  cases hpeek : s.peek with
  | none =>
      simp only [hpeek, Prod.mk.injEq] at h
      exact ⟨h.2.symm, by simp⟩
  | some u =>
      by_cases hkind : u.kind = kind
      · simp [hpeek, hkind] at h
      · simp only [hpeek, if_neg hkind, Prod.mk.injEq] at h
        exact ⟨h.2.symm, by simpa using hkind⟩

end

/-! ## Expecting many kinds -/

section
variable {s : TokenStream}

/-- **The cursor moves by as much as the kinds agree.** -/
theorem expectAll_snd (s : TokenStream) (kinds : List TokenKind) :
    (s.expectAll kinds).2 =
      { s with position := s.position + agreement kinds s.toZipper.ahead } := by
  fun_induction expectAll s kinds with
  | case1 s => rw [agreement_nil, Nat.add_zero]
  | case2 s kind kinds t rest hexpect answers last hlast ih =>
      obtain ⟨hkind, hnext⟩ := of_expect_ok hexpect
      rw [hlast] at ih
      rw [ahead_of_next? hnext, agreement_cons_of_eq hkind, ih, eq_of_next? hnext, Nat.add_assoc,
        Nat.add_comm 1]
  | case3 s kind kinds e rest hexpect =>
      obtain ⟨rfl, hne⟩ := of_expect_error hexpect
      rw [agreement_cons_of_ne hne, Nat.add_zero]

/-- **The answers are the tokens met, and then what the next kind is answered.** -/
theorem expectAll_fst (s : TokenStream) (kinds : List TokenKind) :
    (s.expectAll kinds).1 =
      (s.toZipper.ahead.take (agreement kinds s.toZipper.ahead)).map .ok ++
        (kinds[agreement kinds s.toZipper.ahead]?.map fun kind =>
          ((s.expectAll kinds).2.expect kind).1).toList := by
  fun_induction expectAll s kinds with
  | case1 s => simp
  | case2 s kind kinds t rest hexpect answers last hlast ih =>
      obtain ⟨hkind, hnext⟩ := of_expect_ok hexpect
      rw [hlast] at ih
      rw [ahead_of_next? hnext, agreement_cons_of_eq hkind, List.take_succ_cons, List.map_cons,
        List.getElem?_cons_succ, List.cons_append, ← ih]
  | case3 s kind kinds e rest hexpect =>
      obtain ⟨rfl, hne⟩ := of_expect_error hexpect
      simp [agreement_cons_of_ne hne, hexpect]

theorem read_of_lt (h : s.position < s.size) :
    s.read.2 = { s with position := s.position + 1 } := by
  cases hnext : s.next? with
  | none =>
      have hlen := List.drop_eq_nil_iff.mp (next?_eq_none_iff.mp hnext)
      rw [Array.length_toList] at hlen
      exact absurd h (Nat.not_lt.mpr hlen)
  | some found =>
      obtain ⟨t, rest⟩ := found
      rw [read_of_next? hnext]
      exact eq_of_next? hnext

theorem run_replicate_read {n : Nat} (h : s.position + n ≤ s.size) :
    (s.run (List.replicate n .read)).2 = { s with position := s.position + n } := by
  induction n generalizing s with
  | zero => rfl
  | succ n ih =>
      have hread := read_of_lt (show s.position < s.size by omega)
      have hrun : (s.run (List.replicate (n + 1) .read)).2 =
          (s.read.2.run (List.replicate n .read)).2 := rfl
      rw [hrun, hread, ih (by simp only [size] at h ⊢; omega), Nat.add_assoc, Nat.add_comm 1]

theorem expectAll_fst_of_error {kinds : List TokenKind} {kind : TokenKind} {e : Error}
    (hkind : kinds[agreement kinds s.toZipper.ahead]? = some kind)
    (h : ((s.expectAll kinds).2.expect kind).1 = .error e) : (s.expectAll kinds).1 =
      (s.toZipper.ahead.take (agreement kinds s.toZipper.ahead)).map .ok ++ [.error e] := by
  rw [expectAll_fst, hkind, Option.map_some, h]
  rfl

theorem position_add_agreement_le (h : s.position ≤ s.size) (kinds : List TokenKind) :
    s.position + agreement kinds s.toZipper.ahead ≤ s.size := by
  have hle := agreement_le_length kinds s.toZipper.ahead
  have hlen : s.toZipper.ahead.length = s.size - s.position := by
    rw [ahead_toZipper, List.length_drop, Array.length_toList, size]
  omega

theorem Expects.of_inBounds (h : s.position ≤ s.size) (kinds : List TokenKind) :
    Expects s kinds (agreement kinds s.toZipper.ahead) where
  longest := isGreatest_agreement kinds s.toZipper.ahead
  inBounds := position_add_agreement_le h kinds
  moved := expectAll_snd s kinds
  moved_eq := by rw [expectAll_snd, run_replicate_read (position_add_agreement_le h kinds)]
  met := by
    intro hall
    rw [expectAll_fst, List.getElem?_eq_none (Nat.le_of_eq hall.symm)]
    exact List.append_nil _
  refused := by
    intro kind t hkind ht
    have hahead : s.toZipper.ahead[agreement kinds s.toZipper.ahead]? = some t := by
      rw [← ht, ahead_toZipper, List.getElem?_drop, Array.getElem?_toList]
    refine expectAll_fst_of_error hkind (expect_eq_error_iff.mpr (.inl ⟨t, ?_, ?_, rfl⟩))
    · rw [expectAll_snd]
      exact ht
    · exact kind_ne_of_agreement hkind hahead
  ended := by
    intro kind hkind hend
    refine expectAll_fst_of_error hkind (expect_eq_error_iff.mpr (.inr ⟨?_, ?_⟩))
    · rw [expectAll_snd, hend]
      exact Array.getElem?_eq_none (Nat.le_refl _)
    · rw [expectAll_snd, endOffset_eq]

end

/-! ## Deleting refusals -/

section
variable {α : Type}

@[simp] theorem kept_true_cons (marks : List Bool) (a : α) (l : List α) :
    kept (true :: marks) (a :: l) = a :: kept marks l := rfl

@[simp] theorem kept_false_cons (marks : List Bool) (a : α) (l : List α) :
    kept (false :: marks) (a :: l) = kept marks l := rfl

end

/-- **A question that is refused leaves the stream as it was.** Only an expectation is. -/
theorem answer_of_refused {s : TokenStream} {op : Op} {e : Error}
    (h : (s.answer op).1 = .refused e) : (s.answer op).2 = s := by
  cases op with
  | expect kind =>
      simp only [answer] at h ⊢
      cases hexpect : s.expect kind with
      | mk found rest =>
          cases found with
          | ok t => simp [hexpect, Answer.ofExcept] at h
          | error e => exact (of_expect_error hexpect).1
  | next =>
      rw [answer_next] at h
      simp [answer] at h
  | _ => simp [answer] at h

/-- **A conversation goes on behind a refusal as if it had not been made.** -/
theorem run_kept {s : TokenStream} {ops : List Op} {marks : List Bool}
    (hlen : marks.length = ops.length)
    (h : ∀ i : Nat, marks[i]? = some false →
      ∃ e n, (s.run ops).1[i]? = some (Answer.refused e, n)) :
    s.run (kept marks ops) = (kept marks (s.run ops).1, (s.run ops).2) := by
  induction ops generalizing s marks with
  | nil =>
      obtain rfl := List.length_eq_zero_iff.mp hlen
      rfl
  | cons op ops ih =>
      obtain ⟨mark, marks, rfl⟩ := List.exists_cons_of_length_pos (by rw [hlen]; simp)
      have hrest : (s.answer op).2.run (kept marks ops) = _ :=
        ih (Nat.succ.inj hlen) fun i => h (i + 1)
      cases mark with
      | true => simp only [kept_true_cons, run, hrest]
      | false =>
          -- the question behind it meets the stream that the refused one met
          obtain ⟨e, n, hrefused⟩ := h 0 rfl
          have hanswer : (s.answer op).1 = .refused e :=
            congrArg Prod.fst (Option.some.inj hrefused)
          rw [answer_of_refused hanswer] at hrest
          simp only [kept_false_cons, run, answer_of_refused hanswer, hrest]

/-! ## At the top -/

/--
**Expectations are met as far as the kinds agree with the tokens ahead, and one that fails is as
if it had not been made.**
-/
theorem expectLaws_run (ts : Array Token) (ops : List Op) :
    ExpectLaws ((ofTokens ts).run ops).2 where
  expects := Expects.of_inBounds ((mirrors_ofTokens ts).run ops).2.inBounds
  deleted := fun _ _ => run_kept

end MiniLexer.TokenStream
