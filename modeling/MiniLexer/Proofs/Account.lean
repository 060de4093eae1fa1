import MiniLexer.Proofs.Tiling

/-!
# The log accounts for the source

The scanner fills its log in two places, where it closes a lexeme and where it drops a character,
and a character that closes a lexeme may be dropped right after. The log it ends up with is
nevertheless plain: gap by gap and lexeme by lexeme, an event for each stray character of the gap
and one for the lexeme (`Pending.log_finish_feed`).

So the log can be compared with the source character by character. Every character that is
not blank stands in one event, in the order of the source (`Account.characters`), and no blank
in any.
-/

namespace MiniLexer

open Lexeme (Spells Stops isTokenChar)

/-- Space, tab or newline. -/
def isBlank (c : Char) : Bool := c = ' ' || c = '\t' || c = '\n'

/-- Neither blank nor of any lexeme. -/
def isStray (c : Char) : Bool := !isTokenChar c && !isBlank c

/-- The characters of a text that begins at the given offset, each with its own. -/
def Text.located (k : Nat) : List Char → List (Nat × Char)
  | [] => []
  | c :: cs => (k, c) :: located (k + c.utf8Size) cs

/-- The stray characters of a text, each with its offset. -/
def Text.strays (k : Nat) (cs : List Char) : List (Nat × Char) :=
  (located k cs).filter fun p => isStray p.2

namespace Event

/-- The kind, text and start of a token that was produced. -/
def produced? : Event → Option (TokenKind × String × UInt32)
  | produced kind text start => some (kind, text, start)
  | skipped .. | finished .. => none

/-- A character that was skipped, with its offset. -/
def skipped? : Event → Option (Nat × Char)
  | skipped offset c => some (offset, c)
  | produced .. | finished .. => none

/-- The place in the source that an event is about. -/
def offset? : Event → Option Nat
  | produced _ _ start => some start.toNat
  | skipped offset _ => some offset
  | finished .. => none

/-- The characters of the source that an event is about, each with its offset. -/
def characters : Event → List (Nat × Char)
  | produced _ text start => Text.located start.toNat text.toList
  | skipped offset c => [(offset, c)]
  | finished .. => []

/-- The event of a token. -/
def ofToken (t : Token) : Event := .produced t.kind t.text t.span.start

/-- The event of a stray character. -/
def ofStray (p : Nat × Char) : Event := .skipped p.1 p.2

end Event

/-- What it means that a log accounts for the scan of a source. -/
structure Account (source : String) (tokens : List Token) (log : List Event) : Prop where
  /-- Each token was produced once, in order. -/
  produced : log.filterMap Event.produced? =
    tokens.map fun t => (t.kind, t.text, t.span.start)
  /-- Each stray character was skipped once, in order. -/
  skipped : log.filterMap Event.skipped? = Text.strays 0 source.toList
  /-- All of it was noted in the order of the source. -/
  ordered : (log.filterMap Event.offset?).Pairwise (· < ·)
  /-- There is one summary, and it comes last. -/
  summary : ∃ noted, log = noted ++ [.finished source.utf8ByteSize tokens.length] ∧
    ∀ e ∈ noted, ∀ bytes count, e ≠ .finished bytes count
  /-- The characters that are not blank, and no others, stand in the events, each in one. -/
  characters : log.flatMap Event.characters =
    (Text.located 0 source.toList).filter fun p => !isBlank p.2

/-! ## Characters and their offsets -/

namespace Text

theorem located_append (k : Nat) (as bs : List Char) :
    located k (as ++ bs) = located k as ++ located (k + String.utf8Len as) bs := by
  induction as generalizing k with
  | nil => rfl
  | cons c cs ih => rw [List.cons_append, located, located, ih, add_utf8Len_cons, List.cons_append]

theorem snd_mem_of_mem_located {k : Nat} {cs : List Char} {p : Nat × Char}
    (h : p ∈ located k cs) : p.2 ∈ cs := by
  induction cs generalizing k with
  | nil => simp [located] at h
  | cons c cs ih =>
      rcases List.mem_cons.mp h with rfl | h
      · simp
      · exact List.mem_cons_of_mem c (ih h)

theorem le_of_mem_located {k : Nat} {cs : List Char} {p : Nat × Char}
    (h : p ∈ located k cs) : k ≤ p.1 := by
  induction cs generalizing k with
  | nil => simp [located] at h
  | cons c cs ih =>
      rcases List.mem_cons.mp h with rfl | h
      · exact Nat.le_refl _
      · have := ih h
        omega

/-- Offsets increase along a text. -/
theorem pairwise_located (k : Nat) (cs : List Char) :
    ((located k cs).map Prod.fst).Pairwise (· < ·) := by
  induction cs generalizing k with
  | nil => exact List.Pairwise.nil
  | cons c cs ih =>
      refine List.pairwise_cons.mpr ⟨?_, ih _⟩
      intro j hj
      obtain ⟨p, hp, rfl⟩ := List.mem_map.mp hj
      have hle := le_of_mem_located hp
      have hpos := c.utf8Size_pos
      omega

theorem strays_append (k : Nat) (as bs : List Char) :
    strays k (as ++ bs) = strays k as ++ strays (k + String.utf8Len as) bs := by
  rw [strays, located_append, List.filter_append]
  rfl

/-- There is nothing stray in a lexeme. -/
theorem strays_eq_nil {w : List Char} (h : ∀ c ∈ w, isTokenChar c) (k : Nat) :
    strays k w = [] := by
  rw [strays, List.filter_eq_nil_iff]
  intro p hp
  simp [isStray, h p.2 (snd_mem_of_mem_located hp)]

end Text

theorem isBlank_of_isTokenChar {c : Char} (h : isTokenChar c) : isBlank c = false := by
  by_contra hblank
  simp only [isBlank, Bool.not_eq_false, Bool.or_eq_true, decide_eq_true_eq] at hblank
  rcases hblank with (rfl | rfl) | rfl <;> exact absurd h (by decide)

theorem CharClass.ofChar_of_not_isAlphanum_eq {c : Char} (h : c.isAlphanum = false) :
    ofChar c = if isBlank c then blank else other := by
  simp only [Char.isAlphanum, Bool.or_eq_false_iff] at h
  simp [ofChar, isBlank, h.1, h.2]

/-! ## What a scan logs -/

/-- The events of pieces of which the first begins at the given offset, and of the gap behind
them. -/
def Pieces.log (k : Nat) (g : Gap) : List Piece → List Event
  | [] => (Text.strays k g.chars).map .ofStray
  | p :: ps =>
    (Text.strays k p.gap.chars).map .ofStray ++
      .ofToken (p.token k) :: Pieces.log (k + String.utf8Len p.chars) g ps

namespace Scanner

variable {s : Scanner} {k : Nat} {w : List Char}

/-- A character that belongs to no lexeme is logged if it is stray. -/
theorem log_drop (s : Scanner) (j : Nat) {c : Char} (h : isTokenChar c = false) :
    (s.drop j c).log.toList = s.log.toList ++ (Text.strays j [c]).map .ofStray := by
  have halnum : c.isAlphanum = false := by
    rw [isTokenChar, Bool.or_eq_false_iff] at h
    exact h.1
  rw [drop, CharClass.ofChar_of_not_isAlphanum_eq halnum]
  cases hblank : isBlank c with
  | true => simp [Text.strays, Text.located, isStray, hblank]
  | false => simp [Text.strays, Text.located, isStray, hblank, h, Event.ofStray]

theorem Pending.feed_gap (h : s.Pending k []) {g : List Char}
    (hg : ∀ c ∈ g, isTokenChar c = false) :
    (s.feed k g).Pending (k + String.utf8Len g) [] ∧
      (s.feed k g).log.toList = s.log.toList ++ (Text.strays k g).map .ofStray := by
  induction g generalizing s k with
  | nil => exact ⟨h, by simp [feed, Text.strays, Text.located]⟩
  | cons c g ih =>
      have hc := hg c (by simp)
      obtain ⟨hp, hlog⟩ := ih (h.drop k c (k + c.utf8Size)) fun d hd => hg d (by simp [hd])
      rw [feed, h.step_skip hc]
      constructor
      · rw [Text.add_utf8Len_cons]
        exact hp
      · have happend := Text.strays_append k [c] g
        rw [List.singleton_append, Text.utf8Len_singleton] at happend
        rw [hlog, log_drop s k hc, happend, List.map_append, List.append_assoc]

/-- The rest of a lexeme lengthens the pending text. -/
theorem Pending.feed_rest (h : s.Pending k w) (hw : w ≠ []) {kind : TokenKind}
    {more : List Char} (hk : Spells kind (w ++ more)) :
    (s.feed (k + String.utf8Len w) more).Pending k (w ++ more) ∧
      (s.feed (k + String.utf8Len w) more).log = s.log := by
  induction more generalizing s w with
  | nil => exact ⟨by simpa [feed] using h, rfl⟩
  | cons d more ih =>
      obtain ⟨hp, -, hlog⟩ :=
        h.step_of_continues (hk.continues_prefix hw) (k + String.utf8Len w)
      rw [← List.singleton_append, ← List.append_assoc] at hk ⊢
      have hrec := ih hp (by simp) hk
      rw [String.utf8Len_append, Text.utf8Len_singleton, ← Nat.add_assoc, hlog] at hrec
      exact hrec

/-- Where nothing is pending, a lexeme that is read is pending, and nothing is logged. -/
theorem Pending.feed_lexeme (h : s.Pending k []) {kind : TokenKind} (hk : Spells kind w) :
    (s.feed k w).Pending k w ∧ (s.feed k w).log = s.log := by
  obtain ⟨c, cs, rfl⟩ := List.exists_cons_of_ne_nil hk.ne_nil
  obtain ⟨hp, -, hlog⟩ := h.step_open (hk.isTokenChar c (by simp)) k
  rw [← List.singleton_append] at hk
  obtain ⟨hp', hlog'⟩ := hp.feed_rest (by simp) hk
  rw [Text.utf8Len_singleton] at hp' hlog'
  exact ⟨hp', hlog'.trans hlog⟩

/-- What is pending is logged once it is over, by a character or by the end of the input. -/
theorem Pending.log_finish_feed_of_stops (h : s.Pending k w) (hw : w ≠ [])
    {rest : List Char} (hs : Stops w rest) (j : Nat) :
    (s.feed j rest).finish.log = (s.flush.feed j rest).finish.log := by
  cases rest with
  | nil =>
      rw [feed, feed, (h.flush_nil j).finish_nil]
      rfl
  | cons c cs => rw [feed, feed, h.step_of_not_continues hw ((Lexeme.stops_cons w cs c).mp hs)]

theorem Pending.log_flush (h : s.Pending k w) {kind : TokenKind} (hk : Spells kind w) :
    s.flush.log.toList =
      s.log.toList ++ [.ofToken (.ofText kind (String.ofList w) k)] := by
  obtain ⟨kind', hk', heq⟩ := h.finish_eq hk.ne_nil
  rw [hk'.unique hk] at heq
  rw [flush, heq]
  simp [emit, Event.ofToken]

/-- **A scan of a separated layout logs the events of its pieces.** -/
theorem Pending.log_finish_feed {ps : List Piece} (hps : ps.IsChain Piece.Apart) (g : Gap)
    (h : s.Pending k []) :
    (s.feed k (Pieces.chars ps ++ g.chars)).finish.log.toList =
      s.log.toList ++ Pieces.log k g ps := by
  induction ps generalizing s k with
  | nil =>
      obtain ⟨hp, hlog⟩ := h.feed_gap g.idle
      rw [Pieces.chars_nil, List.nil_append, hp.finish_nil, hlog, Pieces.log]
  | cons p ps ih =>
      obtain ⟨hhead, htail⟩ := List.isChain_cons.mp hps
      have hstops : Stops p.lexeme.chars (Pieces.chars ps ++ g.chars) :=
        (stops_iff p.lexeme ps g).mpr hhead
      obtain ⟨hgap, hgaplog⟩ := h.feed_gap p.gap.idle
      obtain ⟨hlex, hlexlog⟩ := hgap.feed_lexeme p.lexeme.spells
      have hoff : k + String.utf8Len p.gap.chars + String.utf8Len p.lexeme.chars =
          k + String.utf8Len p.chars := by rw [p.utf8Len_chars, Nat.add_assoc]
      rw [Pieces.chars_cons, List.append_assoc, List.append_assoc, feed_append, feed_append,
        hlex.log_finish_feed_of_stops p.lexeme.spells.ne_nil hstops, hoff,
        ih htail (hlex.flush_nil _), hlex.log_flush p.lexeme.spells, hlexlog, hgaplog,
        Pieces.log]
      simp [Piece.token]

end Scanner

/-! ## What the events of pieces say -/

namespace Pieces

variable {k : Nat} {ps : List Piece} {g : Gap}

theorem filterMap_produced?_log (k : Nat) (g : Gap) (ps : List Piece) :
    (log k g ps).filterMap Event.produced? =
      (tokens k ps).map fun t => (t.kind, t.text, t.span.start) := by
  have hstrays : ∀ l : List (Nat × Char),
      (l.map Event.ofStray).filterMap Event.produced? = [] := by
    intro l
    simp [List.filterMap_map, Event.ofStray, Event.produced?]
  induction ps generalizing k with
  | nil => exact hstrays _
  | cons p ps ih =>
      rw [log, List.filterMap_append, hstrays, List.filterMap_cons, ih]
      rfl

theorem located_chars_cons (k : Nat) (g : Gap) (p : Piece) (ps : List Piece) :
    Text.located k (chars (p :: ps) ++ g.chars) =
      Text.located k p.gap.chars ++
        (Text.located (k + String.utf8Len p.gap.chars) p.lexeme.chars ++
          Text.located (k + String.utf8Len p.chars) (chars ps ++ g.chars)) := by
  rw [chars_cons, List.append_assoc, List.append_assoc, Text.located_append,
    Text.located_append (k + String.utf8Len p.gap.chars), p.utf8Len_chars, Nat.add_assoc]

theorem strays_chars_cons (k : Nat) (g : Gap) (p : Piece) (ps : List Piece) :
    Text.strays k (chars (p :: ps) ++ g.chars) =
      Text.strays k p.gap.chars ++
        Text.strays (k + String.utf8Len p.chars) (chars ps ++ g.chars) := by
  have hlex := Text.strays_eq_nil p.lexeme.spells.isTokenChar (k + String.utf8Len p.gap.chars)
  unfold Text.strays at hlex ⊢
  rw [located_chars_cons, List.filter_append, List.filter_append, hlex, List.nil_append]

theorem filterMap_skipped?_log (k : Nat) (g : Gap) (ps : List Piece) :
    (log k g ps).filterMap Event.skipped? = Text.strays k (chars ps ++ g.chars) := by
  have hstrays : ∀ l : List (Nat × Char),
      (l.map Event.ofStray).filterMap Event.skipped? = l := by
    intro l
    rw [List.filterMap_map]
    exact List.filterMap_some
  induction ps generalizing k with
  | nil => exact hstrays _
  | cons p ps ih =>
      rw [log, List.filterMap_append, hstrays, List.filterMap_cons, ih, strays_chars_cons]
      rfl

/-- Below 2³² the event of a token is about the characters of its lexeme. -/
theorem characters_ofToken {p : Piece} (hk : k + String.utf8Len p.chars < UInt32.size) :
    (Event.ofToken (p.token k)).characters =
      Text.located (k + String.utf8Len p.gap.chars) p.lexeme.chars := by
  show Text.located (p.token k).span.start.toNat (p.token k).text.toList = _
  rw [(p.span_token hk).1, Piece.toList_text_token]

/-- **The events of pieces are about their characters, all but the blank ones.** -/
theorem flatMap_characters_log (hk : k + String.utf8Len (chars ps) < UInt32.size) :
    (log k g ps).flatMap Event.characters =
      (Text.located k (chars ps ++ g.chars)).filter fun p => !isBlank p.2 := by
  have hgap : ∀ (g : Gap) (j : Nat),
      ((Text.strays j g.chars).map Event.ofStray).flatMap Event.characters =
        (Text.located j g.chars).filter fun p => !isBlank p.2 := by
    intro g j
    -- in a gap, what is not blank is stray
    have hstray : ∀ q ∈ Text.located j g.chars, isStray q.2 = !isBlank q.2 := by
      intro q hq
      simp [isStray, g.idle q.2 (Text.snd_mem_of_mem_located hq)]
    rw [List.flatMap_map, Text.strays, List.filter_congr hstray]
    exact List.flatMap_singleton' _
  have hlex : ∀ (w : Lexeme) (j : Nat),
      (Text.located j w.chars).filter (fun p => !isBlank p.2) = Text.located j w.chars := by
    intro w j
    rw [List.filter_eq_self]
    intro q hq
    simp [isBlank_of_isTokenChar (w.spells.isTokenChar q.2 (Text.snd_mem_of_mem_located hq))]
  induction ps generalizing k with
  | nil => exact hgap g k
  | cons p ps ih =>
      simp only [chars_cons, String.utf8Len_append] at hk
      have hlen := p.utf8Len_chars
      rw [log, List.flatMap_append, hgap, List.flatMap_cons, ih (by omega),
        characters_ofToken (by omega), located_chars_cons, List.filter_append,
        List.filter_append, hlex]

/-- Below 2³² the events of pieces are about places in their order. -/
theorem sublist_offsets_log (hk : k + String.utf8Len (chars ps) < UInt32.size) :
    ((log k g ps).filterMap Event.offset?).Sublist
      ((Text.located k (chars ps ++ g.chars)).map Prod.fst) := by
  have hgap : ∀ (g : Gap) (j : Nat),
      (((Text.strays j g.chars).map Event.ofStray).filterMap Event.offset?).Sublist
        ((Text.located j g.chars).map Prod.fst) := by
    intro g j
    have hfst : (Event.offset? ∘ Event.ofStray) = fun p => some p.1 := rfl
    rw [List.filterMap_map, hfst, List.filterMap_eq_map']
    exact List.filter_sublist.map Prod.fst
  induction ps generalizing k with
  | nil => exact hgap g k
  | cons p ps ih =>
      simp only [chars_cons, String.utf8Len_append] at hk
      have hlen := p.utf8Len_chars
      obtain ⟨c, cs, hc, -⟩ := p.lexeme.exists_cons
      have hoffset : (Event.ofToken (p.token k)).offset? =
          some (k + String.utf8Len p.gap.chars) :=
        congrArg some (p.span_token (by omega)).1
      rw [log, List.filterMap_append, List.filterMap_cons, hoffset, located_chars_cons,
        List.map_append, List.map_append, hc, Text.located]
      refine (hgap p.gap k).append ?_
      -- of the characters of a lexeme the first one gives its place
      refine List.Sublist.cons_cons _ ?_
      exact (ih (by omega)).trans (List.sublist_append_right _ _)

/-- None of the events of pieces is a summary. -/
theorem ne_finished_of_mem_log {e : Event} (he : e ∈ log k g ps) (bytes count : Nat) :
    e ≠ .finished bytes count := by
  have hgap : ∀ l : List (Nat × Char), e ∈ l.map Event.ofStray → e ≠ .finished bytes count := by
    intro l hl
    obtain ⟨q, -, rfl⟩ := List.mem_map.mp hl
    simp [Event.ofStray]
  induction ps generalizing k with
  | nil => exact hgap _ he
  | cons p ps ih =>
      rw [log, List.mem_append, List.mem_cons] at he
      rcases he with he | rfl | he
      · exact hgap _ he
      · simp [Event.ofToken]
      · exact ih he

end Pieces

/-! ## At the top -/

/-- **The log of a scan accounts for every source below 2³² bytes.** -/
theorem account_events (source : String) (h : source.utf8ByteSize < UInt32.size) :
    Account source (tokenize source).tokens.toList (events source).toList := by
  obtain ⟨l, hsep, hchars, htokens⟩ := Layout.exists_of_source source
  have hbytes := Layout.utf8Len_pieces_lt hchars h
  have hlog : (events source).toList = Pieces.log 0 l.last l.pieces ++
      [.finished source.utf8ByteSize (tokenize source).tokens.toList.length] := by
    have hrun := (Scanner.pending_init 0).log_finish_feed hsep l.last
    have hscan : (Scanner.scan source).log.toList = Pieces.log 0 l.last l.pieces := by
      rw [Scanner.scan, hchars, Layout.chars, hrun]
      rfl
    rw [events, Array.toList_push, hscan]
    rfl
  refine ⟨?_, ?_, ?_, ⟨_, hlog, fun e he => Pieces.ne_finished_of_mem_log he⟩, ?_⟩
  · rw [hlog, List.filterMap_append, Pieces.filterMap_produced?_log, htokens]
    exact List.append_nil _
  · rw [hlog, List.filterMap_append, Pieces.filterMap_skipped?_log, hchars]
    exact List.append_nil _
  · have hsub := Pieces.sublist_offsets_log (g := l.last) hbytes
    have hsorted := (Text.pairwise_located 0 _).sublist hsub
    rw [hlog, List.filterMap_append]
    exact (List.append_nil _).symm ▸ hsorted
  · rw [hlog, List.flatMap_append, Pieces.flatMap_characters_log hbytes, hchars]
    exact List.append_nil _

theorem account_events_mixed : "é>= x@1".utf8ByteSize < UInt32.size ∧
    Account "é>= x@1" (tokenize "é>= x@1").tokens.toList (events "é>= x@1").toList :=
  ⟨by decide, account_events _ (by decide)⟩

end MiniLexer
