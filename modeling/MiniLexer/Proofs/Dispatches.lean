import MiniLexer.Text.Bytes
import MiniLexer.Tokenize

/-!
# How much work a scan is

A character is dispatched again whenever its edge closes a lexeme, and nothing counts how often.
What ends this are the edges: one that closes leads to the initial state, and none closes from
there. So it ends for a scanner with anything in its fields, also one that no scan leads to.

A scan is cut here into single dispatches (`Progress.dispatch?`), which leave a character where it
was unless they consume it. Two quantities bound it. The dispatches still to come
(`Progress.ahead`) get fewer with each of them. The lexemes begun (`Scanner.begun`), which are the
tokens and the text that is open, get more by one at most with a character, and the end of the
input begins none. Counting tokens alone would not do, for the end of the input may add one.
-/

namespace MiniLexer

/-- A scan between two dispatches. -/
structure Progress where
  scanner : Scanner
  /-- Offset of the first character of the unread text. -/
  offset : Nat
  unread : List Char

namespace Progress

/-- A scan of the source that has not begun. -/
def start (source : String) : Progress := ⟨{}, 0, source.toList⟩

/-- Dispatches the next character, if there is one. It stays unread if its edge closes. -/
def dispatch? (p : Progress) : Option (Edge × Progress) :=
  match p.unread with
  | [] => none
  | c :: cs =>
    let edge := transition p.scanner.state c
    let next := p.scanner.follow p.offset c edge
    if edge.action.closes then some (edge, ⟨next, p.offset, c :: cs⟩)
    else some (edge, ⟨next, p.offset + c.utf8Size, cs⟩)

/-- `p.Takes edges p'`: dispatch after dispatch, the scan takes these edges from `p` to `p'`. -/
inductive Takes : Progress → List Edge → Progress → Prop where
  | nil (p : Progress) : Takes p [] p
  | cons {p p' p'' : Progress} {edge : Edge} {edges : List Edge} :
      p.dispatch? = some (edge, p') → Takes p' edges p'' → Takes p (edge :: edges) p''

/-- An upper bound of the dispatches to come. From the initial state the next one consumes its
character. -/
def ahead (p : Progress) : Nat :=
  2 * p.unread.length - if p.scanner.state = .initial then 1 else 0

end Progress

namespace Scanner

/-- The lexemes begun: the tokens, and what is open. -/
def begun (s : Scanner) : Nat := s.tokens.size + if s.buffer = "" then 0 else 1

/-- How a scanner, of which nothing is known, reads a character: over `closing` edges that leave
it unread, and then over the `last` edge. -/
structure Consumes (s : Scanner) (k : Nat) (c : Char) (closing : List Edge) (last : Edge) :
    Prop where
  /-- Whatever follows the character, its dispatches take these edges, and then it is read. -/
  takes : ∀ cs, Progress.Takes ⟨s, k, c :: cs⟩ (closing ++ [last])
    ⟨s.step k c, k + c.utf8Size, cs⟩
  /-- There are at most two. -/
  length_le : (closing ++ [last]).length ≤ 2
  /-- All but the last close. -/
  closes : ∀ edge ∈ closing, edge.action.closes = true
  /-- The last one consumes the character. -/
  consumes : last.action.closes = false
  /-- The character is dropped only in the initial state, to which a closing edge leads. -/
  drops : last.action = .skip → closing = [] → s.state = .initial
  /-- What was closed is no longer open, and a character that is not dropped joins what is open,
  once. -/
  buffer : (s.step k c).buffer =
    (if closing = [] then s.buffer else "") ++ if last.action = .skip then "" else c.toString
  /-- The tokens found before are left as they are, and at most one more is found, by closing. -/
  tokens : ∃ found, (s.step k c).tokens.toList = s.tokens.toList ++ found ∧
    found.length ≤ closing.length

/-! ## One edge -/

/-- Only the initial state drops characters. -/
theorem eq_initial_of_skip {st : ScanState} {c : Char} (h : (transition st c).action = .skip) :
    st = .initial := by
  revert h
  cases st <;> simp only [transition, keywordEdge] <;> (repeat' split) <;> simp [Edge.close]

/-- Closing leaves nothing open. -/
theorem buffer_close (s : Scanner) (kind? : Option TokenKind) : (s.close kind?).buffer = "" := by
  unfold close
  dsimp only
  split
  · split <;> rfl
  · rfl

/-- Closing makes what is open a token or drops it. -/
theorem tokens_close (s : Scanner) (kind? : Option TokenKind) :
    ∃ found, (s.close kind?).tokens.toList = s.tokens.toList ++ found ∧
      found.length ≤ if s.buffer = "" then 0 else 1 := by
  unfold close
  dsimp only
  split
  · split
    · exact ⟨[], by simp, by simp⟩
    · rename_i hbuffer
      have hne : s.buffer ≠ "" := by simpa using hbuffer
      exact ⟨[_], Array.toList_push, by simp [hne]⟩
  · exact ⟨[], by simp, by simp⟩

theorem begun_close_le (s : Scanner) (kind? : Option TokenKind) :
    (s.close kind?).begun ≤ s.begun := by
  obtain ⟨found, htokens, hlength⟩ := s.tokens_close kind?
  have hsize := congrArg List.length htokens
  rw [List.length_append, Array.length_toList, Array.length_toList] at hsize
  rw [begun, begun, buffer_close, if_pos rfl]
  omega

/-- An edge that closes does nothing but close. -/
theorem follow_of_closes {edge : Edge} (h : edge.action.closes = true) (s : Scanner) (k : Nat)
    (c : Char) : ∃ kind?, s.follow k c edge = { s.close kind? with state := edge.next } := by
  obtain ⟨next, action⟩ := edge
  cases action with
  | close => exact ⟨none, rfl⟩
  | closeAs kind => exact ⟨some kind, rfl⟩
  | _ => simp [Action.closes] at h

/-- Any other edge finds no token. It adds the character to what is open or drops it. -/
theorem follow_of_not_closes {edge : Edge} (h : edge.action.closes = false) (s : Scanner) (k : Nat)
    (c : Char) : (s.follow k c edge).tokens = s.tokens ∧
      (s.follow k c edge).buffer = s.buffer ++ if edge.action = .skip then "" else c.toString := by
  obtain ⟨next, action⟩ := edge
  cases action with
  | skip =>
      obtain ⟨log, hdrop⟩ := s.drop_eq k c
      rw [if_pos rfl, String.append_empty, follow, act, hdrop]
      exact ⟨rfl, rfl⟩
  | close => simp [Action.closes] at h
  | closeAs kind => simp [Action.closes] at h
  | _ =>
      rw [if_neg (by simp), Char.toString, ← String.push_eq_append]
      exact ⟨rfl, rfl⟩

theorem begun_follow_of_closes {edge : Edge} (h : edge.action.closes = true) (s : Scanner)
    (k : Nat) (c : Char) : (s.follow k c edge).begun ≤ s.begun := by
  obtain ⟨kind?, hclose⟩ := follow_of_closes h s k c
  rw [hclose]
  exact s.begun_close_le kind?

theorem begun_follow_of_not_closes {edge : Edge} (h : edge.action.closes = false) (s : Scanner)
    (k : Nat) (c : Char) : (s.follow k c edge).begun ≤ s.begun + 1 := by
  have htokens := (follow_of_not_closes h s k c).1
  rw [begun, begun, htokens]
  split <;> split <;> omega

end Scanner

namespace Progress

/-! ## One character -/

theorem dispatch?_of_closes {s : Scanner} {c : Char}
    (h : (transition s.state c).action.closes = true) (k : Nat) (cs : List Char) :
    dispatch? ⟨s, k, c :: cs⟩ =
      some (transition s.state c, ⟨s.follow k c (transition s.state c), k, c :: cs⟩) := by
  simp [dispatch?, h]

theorem dispatch?_of_not_closes {s : Scanner} {c : Char}
    (h : (transition s.state c).action.closes = false) (k : Nat) (cs : List Char) :
    dispatch? ⟨s, k, c :: cs⟩ =
      some (transition s.state c,
        ⟨s.follow k c (transition s.state c), k + c.utf8Size, cs⟩) := by
  simp [dispatch?, h]

theorem Takes.trans {p p' p'' : Progress} {edges edges' : List Edge} (h : p.Takes edges p')
    (h' : p'.Takes edges' p'') : p.Takes (edges ++ edges') p'' := by
  induction h with
  | nil => exact h'
  | cons hd _ ih => exact .cons hd (ih h')

/-- **The dispatches of a character are those of its route, and lead where its step leads.** -/
theorem takes_step (s : Scanner) (k : Nat) (c : Char) (cs : List Char) :
    Takes ⟨s, k, c :: cs⟩ (route s.state c) ⟨s.step k c, k + c.utf8Size, cs⟩ := by
  cases hc : (transition s.state c).action.closes with
  | false =>
      rw [route_of_not_closes hc, Scanner.step_of_not_closes k hc]
      exact .cons (dispatch?_of_not_closes hc k cs) (.nil _)
  | true =>
      have hnext : (s.follow k c (transition s.state c)).state = .initial :=
        transition_next_of_closes hc
      have hagain := dispatch?_of_not_closes (s := s.follow k c (transition s.state c))
        (by rw [hnext]; exact transition_initial_closes c) k cs
      rw [hnext] at hagain
      rw [route_of_closes hc, Scanner.step_of_closes k hc]
      exact .cons (dispatch?_of_closes hc k cs) (.cons hagain (.nil _))

/-- A text is read in dispatches, and there is an end to them. -/
theorem exists_takes_feed (s : Scanner) (k : Nat) (cs : List Char) :
    ∃ edges, Takes ⟨s, k, cs⟩ edges ⟨s.feed k cs, k + String.utf8Len cs, []⟩ := by
  induction cs generalizing s k with
  | nil => exact ⟨[], .nil _⟩
  | cons c cs ih =>
      obtain ⟨edges, hedges⟩ := ih (s.step k c) (k + c.utf8Size)
      rw [← Text.add_utf8Len_cons] at hedges
      exact ⟨_, (takes_step s k c cs).trans hedges⟩

/-! ## The dispatches get fewer -/

theorem ahead_le (p : Progress) : p.ahead ≤ 2 * p.unread.length := Nat.sub_le _ _

/-- **Each dispatch leaves fewer to come.** -/
theorem ahead_dispatch {p p' : Progress} {edge : Edge} (h : p.dispatch? = some (edge, p')) :
    p'.ahead < p.ahead := by
  obtain ⟨s, k, _ | ⟨c, cs⟩⟩ := p
  · simp [dispatch?] at h
  · cases hc : (transition s.state c).action.closes with
    | true =>
        -- the character is there as before, but now the state is the initial one
        have hst := ne_initial_of_closes hc
        rw [dispatch?_of_closes hc] at h
        obtain ⟨-, rfl⟩ := Prod.mk.inj (Option.some.inj h)
        have hnext : (s.follow k c (transition s.state c)).state = .initial :=
          transition_next_of_closes hc
        rw [ahead, ahead, if_pos hnext, if_neg hst, List.length_cons]
        omega
    | false =>
        rw [dispatch?_of_not_closes hc] at h
        obtain ⟨-, rfl⟩ := Prod.mk.inj (Option.some.inj h)
        have hread : ahead ⟨s.follow k c (transition s.state c), k + c.utf8Size, cs⟩ ≤
            2 * cs.length := ahead_le _
        refine Nat.lt_of_le_of_lt hread ?_
        rw [ahead, List.length_cons]
        split <;> omega

theorem length_le_of_takes {p p' : Progress} {edges : List Edge} (h : p.Takes edges p') :
    edges.length + p'.ahead ≤ p.ahead := by
  induction h with
  | nil => simp
  | cons hd _ ih =>
      have := ahead_dispatch hd
      rw [List.length_cons]
      omega

end Progress

namespace Scanner

/-! ## Any scanner, any character -/

/-- Whatever its fields hold, a scanner reads a character over one edge or two. -/
theorem exists_consumes (s : Scanner) (k : Nat) (c : Char) :
    ∃ closing last, s.Consumes k c closing last := by
  have htakes := Progress.takes_step s k c
  cases hc : (transition s.state c).action.closes with
  | false =>
      obtain ⟨htokens, hbuffer⟩ := follow_of_not_closes hc s k c
      rw [route_of_not_closes hc] at htakes
      rw [← step_of_not_closes k hc] at htokens hbuffer
      exact ⟨[], transition s.state c, {
        takes := htakes
        length_le := Nat.le_succ 1
        closes := fun edge h => absurd h List.not_mem_nil
        consumes := hc
        drops := fun hskip _ => eq_initial_of_skip hskip
        buffer := hbuffer
        tokens := ⟨[], by rw [htokens, List.append_nil], Nat.le_refl 0⟩ }⟩
  | true =>
      -- the text goes with the first edge, and what the second one finds is empty
      obtain ⟨kind?, hclose⟩ := follow_of_closes hc s k c
      obtain ⟨found, hfound, hlength⟩ := s.tokens_close kind?
      have hopen := transition_initial_closes c
      obtain ⟨htokens, hbuffer⟩ :=
        follow_of_not_closes hopen (s.follow k c (transition s.state c)) k c
      rw [route_of_closes hc] at htakes
      rw [transition, ← step_of_closes k hc, hclose] at htokens hbuffer
      exact ⟨[transition s.state c], transition .initial c, {
        takes := htakes
        length_le := Nat.le_refl 2
        closes := fun edge h => by rw [List.mem_singleton.mp h, hc]
        consumes := hopen
        drops := fun _ hnil => absurd hnil (List.cons_ne_nil _ _)
        buffer := hbuffer.trans (by rw [buffer_close]; rfl)
        tokens := ⟨found, htokens ▸ hfound, by split at hlength <;> simp <;> omega⟩ }⟩

/-! ## The lexemes begun -/

/-- **A character begins one lexeme at most.** -/
theorem begun_step_le (s : Scanner) (k : Nat) (c : Char) : (s.step k c).begun ≤ s.begun + 1 := by
  cases hc : (transition s.state c).action.closes with
  | false =>
      rw [step_of_not_closes k hc]
      exact begun_follow_of_not_closes hc s k c
  | true =>
      have hclose := begun_follow_of_closes hc s k c
      have hopen := begun_follow_of_not_closes (openingEdge_closes c)
        (s.follow k c (transition s.state c)) k c
      rw [step_of_closes k hc]
      omega

theorem begun_feed_le (s : Scanner) (k : Nat) (cs : List Char) :
    (s.feed k cs).begun ≤ s.begun + cs.length := by
  induction cs generalizing s k with
  | nil => exact Nat.le_refl _
  | cons c cs ih =>
      have hstep := s.begun_step_le k c
      have hrest := ih (s.step k c) (k + c.utf8Size)
      rw [feed, List.length_cons]
      omega

/-- The end of the input begins none. -/
theorem size_tokens_finish_le (s : Scanner) : s.finish.tokens.size ≤ s.begun := by
  have hbegun : s.finish.begun ≤ s.begun := by
    unfold finish
    split
    · exact s.begun_close_le _
    · exact Nat.le_refl _
    all_goals exact s.begun_close_le none
  exact Nat.le_trans (Nat.le_add_right _ _) hbegun

/-! ## At the top -/

/--
**A scan is over after two dispatches for each character.**

A closing edge leads to the initial state, from which none closes. So whatever a scanner holds,
one or two dispatches read a character, which is kept at most once and dropped only from the
initial state, and one token at most comes of it, behind those found before. A source is
therefore scanned to its end, no way of dispatching it is longer than twice its length, and it
has no more tokens than characters.
-/
theorem scan_bounded :
    (∀ (st : ScanState) (c : Char),
        ((transition st c).action.closes = true → (transition st c).next = .initial) ∧
          (transition .initial c).action.closes = false) ∧
      (∀ (s : Scanner) (k : Nat) (c : Char), ∃ closing last, s.Consumes k c closing last) ∧
      ∀ source : String,
        (∃ edges s, (Progress.start source).Takes edges ⟨s, source.utf8ByteSize, []⟩ ∧
          s.finish = scan source) ∧
        (∀ edges p, (Progress.start source).Takes edges p → edges.length ≤ 2 * source.length) ∧
        (tokenize source).tokens.size ≤ source.length := by
  refine ⟨?_, exists_consumes, ?_⟩
  · intro st c
    exact ⟨transition_next_of_closes, transition_initial_closes c⟩
  · intro source
    refine ⟨?_, ?_, ?_⟩
    · obtain ⟨edges, hedges⟩ := Progress.exists_takes_feed {} 0 source.toList
      rw [Nat.zero_add, String.utf8Len_toList] at hedges
      exact ⟨edges, _, hedges, rfl⟩
    · intro edges p h
      have hlength := Progress.length_le_of_takes h
      have hstart : (Progress.start source).ahead ≤ 2 * source.toList.length := Progress.ahead_le _
      rw [← String.length_toList]
      omega
    · have hbegun := begun_feed_le {} 0 source.toList
      have hfinish := size_tokens_finish_le (({} : Scanner).feed 0 source.toList)
      have hnone : ({} : Scanner).begun = 0 := rfl
      have hsize : (tokenize source).tokens.size =
          (({} : Scanner).feed 0 source.toList).finish.tokens.size := rfl
      rw [← String.length_toList]
      omega

end Scanner

end MiniLexer
