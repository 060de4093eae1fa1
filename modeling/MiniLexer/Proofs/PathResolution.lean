import MiniLexer.Cli.FileTree

/-!
# Where a path leads

`FileTree.read` goes along a path and stops at the first thing that is not a directory. This
file says without going along it what the path leads to. A part of the path leads through
directories to some directory (`Walks`), and there the next name is looked up (`Meets`). So
there are five ways in which a tree refuses to give a text for a path (`Refuses`), and one
in which it gives it (`Holds`): each time the place where the walk ends settles it.
-/

namespace MiniLexer.Cli.FileTree

/-- A component that names something in a directory. The others stay or go up. -/
def Names (component : String) : Prop := component ∉ ["", ".", ".."]

/-- `t.Walks here components there`: the components lead from `here` to `there`, and all on
the way are directories. -/
inductive Walks (t : FileTree) : Place → List String → Place → Prop where
  | stop {here : Place} : t.Walks here [] here
  | stay {here there : Place} {component : String} {rest : List String} :
      component = "" ∨ component = "." → t.Walks here rest there →
      t.Walks here (component :: rest) there
  | up {here there : Place} {rest : List String} :
      t.Walks here.parent rest there → t.Walks here (".." :: rest) there
  | down {here there : Place} {name : String} {rest : List String} :
      Names name → t.find? (here ++ [name]) = some .directory →
      t.Walks (here ++ [name]) rest there → t.Walks here (name :: rest) there

/-- `t.Meets path place rest`: the path leads through directories to the one around `place`,
names `place` there, and goes on with `rest`. -/
inductive Meets (t : FileTree) (path : String) : Place → List String → Prop where
  | named {before rest : List String} {name : String} {here : Place} :
      path ≠ "" → path.splitOn "/" = before ++ name :: rest →
      t.Walks (.start path) before here → Names name → Meets t path (here ++ [name]) rest

/-- `t.Refuses path failure`: there is no text at the path, for this reason. -/
inductive Refuses (t : FileTree) (path : String) : ReadFailure → Prop where
  | empty : path = "" → Refuses t path .missing
  | missing {place : Place} {rest : List String} :
      t.Meets path place rest → t.find? place = none → Refuses t path .missing
  | behindFile {place : Place} {rest : List String} {bytes : ByteArray} :
      t.Meets path place rest → t.find? place = some (.file bytes) → rest ≠ [] →
      Refuses t path .behindFile
  | directory {place : Place} :
      path ≠ "" → t.Walks (.start path) (path.splitOn "/") place → Refuses t path .directory
  | notText {place : Place} {bytes : ByteArray} :
      t.Meets path place [] → t.find? place = some (.file bytes) →
      String.fromUTF8? bytes = none → Refuses t path .notText

/-- `t.Holds path text`: the path leads to a file with this text. -/
inductive Holds (t : FileTree) (path text : String) : Prop where
  | file {place : Place} {bytes : ByteArray} :
      t.Meets path place [] → t.find? place = some (.file bytes) →
      String.fromUTF8? bytes = some text → Holds t path text

variable {t : FileTree} {path : String}

/-! ## Going along a path -/

theorem readFrom_stay {component : String} (h : component = "" ∨ component = ".") (here : Place)
    (rest : List String) : t.readFrom here (component :: rest) = t.readFrom here rest := by
  rcases h with rfl | rfl
  · rw [readFrom]
  · rw [readFrom]

theorem readFrom_up (here : Place) (rest : List String) :
    t.readFrom here (".." :: rest) = t.readFrom here.parent rest := by
  rw [readFrom]

theorem readFrom_name {name : String} (h : Names name) (here : Place) (rest : List String) :
    t.readFrom here (name :: rest) =
      match t.find? (here ++ [name]) with
      | none => .error .missing
      | some .directory => t.readFrom (here ++ [name]) rest
      | some (.file bytes) => if rest.isEmpty then .ok bytes else .error .behindFile := by
  simp only [Names, List.mem_cons, List.not_mem_nil, or_false, not_or] at h
  -- the last equation of `readFrom`, after those of the three other components
  exact readFrom.eq_5 t here name rest h.1 h.2.1 h.2.2

theorem readFrom_of_walks {here there : Place} {before : List String}
    (h : t.Walks here before there) (rest : List String) :
    t.readFrom here (before ++ rest) = t.readFrom there rest := by
  induction h with
  | stop => rfl
  | stay hcomponent _ ih => rw [List.cons_append, readFrom_stay hcomponent, ih]
  | up _ ih => rw [List.cons_append, readFrom_up, ih]
  | down hname hfind _ ih => rw [List.cons_append, readFrom_name hname, hfind]; exact ih

/-- Either all components lead through directories, or one of them is the first that names
something else. -/
theorem walks_or_exists_name (t : FileTree) (here : Place) (components : List String) :
    (∃ there, t.Walks here components there) ∨
      ∃ before name rest there, components = before ++ name :: rest ∧
        t.Walks here before there ∧ Names name ∧
        t.find? (there ++ [name]) ≠ some .directory := by
  induction components generalizing here with
  | nil => exact Or.inl ⟨here, .stop⟩
  | cons component rest ih =>
      -- a walk of the rest is one of the whole, once the first step is put before it
      have hstep : ∀ next,
          (∀ before there, t.Walks next before there → t.Walks here (component :: before) there) →
          (∃ there, t.Walks here (component :: rest) there) ∨
            ∃ before name rest' there, component :: rest = before ++ name :: rest' ∧
              t.Walks here before there ∧ Names name ∧
              t.find? (there ++ [name]) ≠ some .directory := by
        intro next hnext
        rcases ih next with ⟨there, hwalks⟩ |
          ⟨before, name, rest', there, rfl, hwalks, hname, hfind⟩
        · exact Or.inl ⟨there, hnext rest there hwalks⟩
        · exact Or.inr ⟨component :: before, name, rest', there, rfl,
            hnext before there hwalks, hname, hfind⟩
      by_cases hstay : component = "" ∨ component = "."
      · exact hstep here fun _ _ hwalks => .stay hstay hwalks
      · by_cases hup : component = ".."
        · subst hup
          exact hstep here.parent fun _ _ hwalks => .up hwalks
        · have hname : Names component := by
            simp only [Names, List.mem_cons, List.not_mem_nil, or_false, not_or] at hstay ⊢
            exact ⟨hstay.1, hstay.2, hup⟩
          by_cases hfind : t.find? (here ++ [component]) = some .directory
          · exact hstep (here ++ [component]) fun _ _ hwalks => .down hname hfind hwalks
          · exact Or.inr ⟨[], component, rest, here, rfl, .stop, hname, hfind⟩

/-! ## What is read -/

theorem readBytes_of_meets {place : Place} {rest : List String} (h : t.Meets path place rest) :
    t.readBytes path =
      match t.find? place with
      | none => .error .missing
      | some .directory => t.readFrom place rest
      | some (.file bytes) => if rest.isEmpty then .ok bytes else .error .behindFile := by
  obtain ⟨hpath, hsplit, hwalks, hname⟩ := h
  rw [readBytes, if_neg hpath, hsplit, readFrom_of_walks hwalks, readFrom_name hname]

theorem read_of_holds {text : String} (h : t.Holds path text) : t.read path = .ok text := by
  obtain ⟨hmeets, hfind, htext⟩ := h
  simp [read, readBytes_of_meets hmeets, hfind, decodeText, htext]

theorem read_of_refuses {failure : ReadFailure} (h : t.Refuses path failure) :
    t.read path = .error failure := by
  cases h with
  | empty hpath => simp [read, readBytes, hpath]
  | missing hmeets hfind => simp [read, readBytes_of_meets hmeets, hfind]
  | behindFile hmeets hfind hrest => simp [read, readBytes_of_meets hmeets, hfind, hrest]
  | directory hpath hwalks =>
      have hread := readFrom_of_walks hwalks []
      rw [List.append_nil] at hread
      simp [read, readBytes, hpath, hread, readFrom]
  | notText hmeets hfind htext =>
      simp [read, readBytes_of_meets hmeets, hfind, decodeText, htext]

/-- A tree gives a text for every path or refuses to. -/
theorem exists_holds_or_refuses (t : FileTree) (path : String) :
    (∃ text, t.Holds path text) ∨ ∃ failure, t.Refuses path failure := by
  by_cases hpath : path = ""
  · exact Or.inr ⟨_, .empty hpath⟩
  rcases t.walks_or_exists_name (.start path) (path.splitOn "/") with
    ⟨there, hwalks⟩ | ⟨before, name, rest, there, hsplit, hwalks, hname, hfind⟩
  · exact Or.inr ⟨_, .directory hpath hwalks⟩
  · have hmeets : t.Meets path (there ++ [name]) rest := .named hpath hsplit hwalks hname
    cases hentry : t.find? (there ++ [name]) with
    | none => exact Or.inr ⟨_, .missing hmeets hentry⟩
    | some entry =>
        cases entry with
        | directory => exact absurd hentry hfind
        | file bytes =>
            by_cases hrest : rest = []
            · subst hrest
              cases htext : String.fromUTF8? bytes with
              | none => exact Or.inr ⟨_, .notText hmeets hentry htext⟩
              | some text => exact Or.inl ⟨text, .file hmeets hentry htext⟩
            · exact Or.inr ⟨_, .behindFile hmeets hentry hrest⟩

theorem read_eq_error_iff {failure : ReadFailure} :
    t.read path = .error failure ↔ t.Refuses path failure := by
  refine ⟨?_, read_of_refuses⟩
  intro h
  rcases t.exists_holds_or_refuses path with ⟨text, hholds⟩ | ⟨failure', hrefuses⟩
  · rw [read_of_holds hholds] at h
    simp at h
  · rw [read_of_refuses hrefuses, Except.error.injEq] at h
    exact h ▸ hrefuses

theorem read_eq_ok_iff {text : String} : t.read path = .ok text ↔ t.Holds path text := by
  refine ⟨?_, read_of_holds⟩
  intro h
  rcases t.exists_holds_or_refuses path with ⟨text', hholds⟩ | ⟨failure, hrefuses⟩
  · rw [read_of_holds hholds, Except.ok.injEq] at h
    exact h ▸ hholds
  · rw [read_of_refuses hrefuses] at h
    simp at h

end MiniLexer.Cli.FileTree
