import MiniLexer.Proofs.OpenLexeme

/-!
# The scanner between two characters

`Scanner.close` looks at two of the pieces in which the open lexeme is kept, its text and its
kind, and drops the lexeme without a word if one is missing. This file shows that none ever is.
Between two characters of a scan the pieces agree with each other and with the text read so
far (`Scanner.Midway`), so each closing edge, and the end of the input, makes one token of what
is open.

The step lemma says that `Scanner.Pending` is kept: after a character, what is pending is an end
of what was pending and the character (`Pending.exists_step`). The run lemma
(`Pending.exists_feed`) says the same of a text.
-/

namespace MiniLexer

theorem ScanState.kind?_eq_none_iff {st : ScanState} : st.kind? = none ↔ st = .initial := by
  cases st <;> simp [kind?]

/-- The dispatch of a character closes a lexeme at most once, and then first of all. -/
theorem route_eq_append_of_closes {st : ScanState} {c : Char} {earlier later : List Edge}
    {edge : Edge} (h : route st c = earlier ++ edge :: later) (hedge : edge.action.closes) :
    earlier = [] ∧ edge = transition st c := by
  cases hcloses : (transition st c).action.closes with
  | false =>
      rw [route_of_not_closes hcloses] at h
      obtain ⟨rfl, rfl, -⟩ : earlier = [] ∧ edge = transition st c ∧ later = [] := by
        simpa [List.singleton_eq_append_iff] using h
      exact ⟨rfl, rfl⟩
  | true =>
      rw [route_of_closes hcloses] at h
      cases earlier with
      | nil => exact ⟨rfl, (List.cons.inj h).1.symm⟩
      | cons e earlier =>
          -- the second edge leaves the initial state
          have hmem : edge ∈ [transition .initial c] := by
            rw [(List.cons.inj h).2]
            simp
          rw [List.mem_singleton.mp hmem, transition_initial_closes] at hedge
          simp at hedge

namespace Scanner

/-- The open lexeme of `s` is closed: it has a text and a kind, and one token more is found, which
has that text and begins where it began. -/
structure Closes (s closed : Scanner) : Prop where
  buffer : s.buffer ≠ ""
  kind : s.kind ≠ none
  tokens : ∃ kind, closed.tokens = s.tokens.push (.ofText kind s.buffer s.start)

/-- What holds of a scanner that has read a text. -/
structure Midway (s : Scanner) (read : List Char) : Prop where
  /-- There is no text exactly where no lexeme is open. -/
  buffer_empty_iff : s.buffer = "" ↔ s.state = .initial
  /-- There is no kind exactly where no lexeme is open. -/
  kind_none_iff : s.kind = none ↔ s.state = .initial
  /-- The open lexeme is the end of what is read, from the offset on. -/
  suffix : s.state ≠ .initial → ∃ before, read = before ++ s.buffer.toList ∧
    s.start = String.utf8Len before ∧
    s.start + s.buffer.utf8ByteSize = String.utf8Len read
  /-- Its text is one that the state stands for. -/
  holds : s.state.Holds s.buffer.toList
  /-- Its kind is the one of the state. -/
  kind_eq : s.kind = s.state.kind?
  /-- Whatever character comes next, of the edges it takes those that close do close. -/
  closing : ∀ (c : Char) (earlier later : List Edge) (edge : Edge),
    route s.state c = earlier ++ edge :: later → edge.action.closes →
      let here := earlier.foldl (fun s e => s.follow (String.utf8Len read) c e) s
      here.Closes (here.follow (String.utf8Len read) c edge)
  /-- If nothing comes next, what is open is closed. -/
  finish : s.state ≠ .initial → s.Closes s.finish

variable {s : Scanner} {k : Nat} {w : List Char}

/-! ## One character -/

theorem Pending.exists_step_nil (h : s.Pending k []) (c : Char) :
    ∃ done w', [c] = done ++ w' ∧ (s.step k c).Pending (k + String.utf8Len done) w' := by
  cases hc : Lexeme.isTokenChar c with
  | true => exact ⟨[], [c], rfl, (h.step_open hc k).1⟩
  | false =>
      rw [h.step_skip hc]
      exact ⟨[c], [], rfl, h.drop k c _⟩

/-- **After a character, something is pending that ends with what is read.** -/
theorem Pending.exists_step (h : s.Pending k w) (c : Char) :
    ∃ done w', w ++ [c] = done ++ w' ∧
      (s.step (k + String.utf8Len w) c).Pending (k + String.utf8Len done) w' := by
  cases hc : Lexeme.continues w c with
  | true => exact ⟨[], w ++ [c], rfl, (h.step_of_continues hc _).1⟩
  | false =>
      by_cases hw : w = []
      · subst hw
        exact h.exists_step_nil c
      · -- what is pending is over, and the character finds nothing pending
        rw [h.step_of_not_continues hw hc]
        obtain ⟨done, w', hsplit, hp⟩ :=
          (h.flush_nil (k + String.utf8Len w)).exists_step_nil c
        refine ⟨w ++ done, w', by rw [hsplit, List.append_assoc], ?_⟩
        rw [String.utf8Len_append, ← Nat.add_assoc]
        exact hp

/-! ## A text -/

/-- **After a text, something is pending that ends with what is read.** -/
theorem Pending.exists_feed (h : s.Pending k w) (cs : List Char) :
    ∃ done w', w ++ cs = done ++ w' ∧
      (s.feed (k + String.utf8Len w) cs).Pending (k + String.utf8Len done) w' := by
  induction cs generalizing s k w with
  | nil => exact ⟨[], w, by simp, h⟩
  | cons c cs ih =>
      obtain ⟨done, w', hsplit, hp⟩ := h.exists_step c
      obtain ⟨done', w'', hsplit', hp'⟩ := ih hp
      have hbytes := congrArg String.utf8Len hsplit
      simp only [String.utf8Len_append, String.utf8Len_cons, String.utf8Len_nil] at hbytes
      refine ⟨done ++ done', w'', ?_, ?_⟩
      · rw [← List.singleton_append, ← List.append_assoc, hsplit, List.append_assoc, hsplit',
          List.append_assoc]
      · have hoff : k + String.utf8Len w + c.utf8Size =
            k + String.utf8Len done + String.utf8Len w' := by omega
        rw [feed, hoff, String.utf8Len_append, ← Nat.add_assoc]
        exact hp'

/-! ## Closing -/

theorem Pending.buffer_empty_iff (h : s.Pending k w) : s.buffer = "" ↔ s.state = .initial := by
  rw [h.state.eq_initial_iff, h.buffer, ← String.toList_inj]
  simp

theorem Pending.kind_none_iff (h : s.Pending k w) : s.kind = none ↔ s.state = .initial := by
  rw [h.kind, ScanState.kind?_eq_none_iff]

/-- What is open is closed into one token, its text and kind being there. -/
theorem Pending.closes_finish (h : s.Pending k w) (hst : s.state ≠ .initial) :
    s.Closes s.finish where
  buffer := fun he => hst (h.buffer_empty_iff.mp he)
  kind := fun he => hst (h.kind_none_iff.mp he)
  tokens := by
    have hw := h.ne_nil hst
    obtain ⟨kind, -, heq⟩ := h.finish_eq hw
    refine ⟨kind, ?_⟩
    rw [heq, h.buffer, h.start hw]
    rfl

/-- A closing edge closes as the end of the input does. -/
theorem Pending.closes_follow (h : s.Pending k w) {c : Char}
    (hc : (transition s.state c).action.closes) (j : Nat) :
    s.Closes (s.follow j c (transition s.state c)) := by
  have hst := ne_initial_of_closes hc
  have hw := h.ne_nil hst
  have hfinish := h.closes_finish hst
  cases hcont : Lexeme.continues w c with
  | true =>
      -- an edge that lengthens the text does not close
      obtain ⟨-, ⟨hact, -⟩ | ⟨kind, hact, -⟩⟩ := transition_of_continues h.state hcont
      · simp [hact, Action.closes] at hc
      · simp [hact, Action.closes] at hc
  | false =>
      rw [(h.follow_of_not_continues hw hcont j).2]
      exact ⟨hfinish.buffer, hfinish.kind, hfinish.tokens⟩

theorem Pending.midway {read before : List Char} (h : s.Pending (String.utf8Len before) w)
    (hread : read = before ++ w) : s.Midway read where
  buffer_empty_iff := h.buffer_empty_iff
  kind_none_iff := h.kind_none_iff
  suffix := by
    intro hst
    have hw := h.ne_nil hst
    refine ⟨before, by rw [hread, h.buffer, String.toList_ofList], h.start hw, ?_⟩
    rw [h.start hw, h.buffer, String.utf8ByteSize_ofList, hread, String.utf8Len_append]
  holds := by
    rw [h.buffer, String.toList_ofList]
    exact h.state
  kind_eq := h.kind
  closing := by
    intro c earlier later edge hroute hedge
    obtain ⟨rfl, rfl⟩ := route_eq_append_of_closes hroute hedge
    exact h.closes_follow hedge _
  finish := h.closes_finish

/-! ## At the top -/

/--
**Between two characters of a scan the scanner is in step with the text it has read.**

The scan of a source goes through the scanner that has read any given beginning of it. So
whenever a scan closes a lexeme, at a character or at the end of the input, there is a text and a
kind, and just one token comes of it.
-/
theorem midway_feed (read rest : List Char) :
    (({} : Scanner).feed 0 read).Midway read ∧
      scan (String.ofList (read ++ rest)) =
        ((({} : Scanner).feed 0 read).feed (String.utf8Len read) rest).finish := by
  constructor
  · obtain ⟨before, w, hsplit, hp⟩ := (pending_init 0).exists_feed read
    rw [String.utf8Len_nil, Nat.zero_add, Nat.zero_add] at hp
    exact hp.midway hsplit
  · rw [scan, String.toList_ofList, feed_append, Nat.zero_add]

end Scanner

end MiniLexer
