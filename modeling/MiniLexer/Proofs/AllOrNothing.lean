import MiniLexer.Cli.Run
import MiniLexer.Proofs.CommandLine
import MiniLexer.Proofs.PathResolution

/-!
# A run lists everything or nothing

The files are loaded one after another, and nothing is printed before the last of them. So
the first file that cannot be read is the only thing such a run speaks of: neither the
scripts nor the files before it leave a trace, and the files behind it are not even looked
at. `load_eq_error_iff` says which file that is, and the law for a whole run follows from it
for every command line and for every way in which a system may answer.
-/

namespace MiniLexer.Cli

/-- The file at `path` is the first that is refused. -/
def IsFirst (refuses : String → ReadFailure → Prop) (files : List String) (path : String)
    (failure : ReadFailure) : Prop :=
  ∃ before after, files = before ++ path :: after ∧
    (∀ p ∈ before, ∀ f, ¬ refuses p f) ∧ refuses path failure

/-- A run over these files ends well, or it reports the first file that is refused and prints
nothing else. -/
structure AllOrNothing (refuses : String → ReadFailure → Prop) (files : List String)
    (o : Outcome) : Prop where
  /-- The report names the file and the reason, so nothing else has a part in it. -/
  report : ∀ path failure, IsFirst refuses files path failure →
    o = ⟨1, "", "Error: SourceUnreadable (Could not read `" ++ path ++ "`: " ++
      failure.message ++ ")\n"⟩
  /-- One of the refused files is the first. -/
  first : (∃ path ∈ files, ∃ failure, refuses path failure) →
    ∃ path failure, IsFirst refuses files path failure
  ends_well : (∀ path ∈ files, ∀ failure, ¬ refuses path failure) → o.code = 0 ∧ o.stderr = ""

/-! ## The first refused file -/

section
variable {refuses : String → ReadFailure → Prop} {files : List String} {p path : String}
  {failure : ReadFailure}

theorem not_isFirst_nil : ¬ IsFirst refuses [] path failure := by
  intro ⟨before, after, hfiles, _⟩
  simp at hfiles

theorem isFirst_cons_iff :
    IsFirst refuses (p :: files) path failure ↔
      (path = p ∧ refuses p failure) ∨
        (∀ f, ¬ refuses p f) ∧ IsFirst refuses files path failure := by
  constructor
  · intro ⟨before, after, hfiles, hbefore, hrefused⟩
    cases before with
    | nil =>
        obtain ⟨rfl, rfl⟩ := List.cons.inj hfiles
        exact Or.inl ⟨rfl, hrefused⟩
    | cons q before =>
        obtain ⟨rfl, htail⟩ := List.cons.inj hfiles
        rw [List.forall_mem_cons] at hbefore
        exact Or.inr ⟨hbefore.1, before, after, htail, hbefore.2, hrefused⟩
  · intro h
    rcases h with ⟨rfl, hrefused⟩ | ⟨hp, before, after, rfl, hbefore, hrefused⟩
    · exact ⟨[], files, rfl, by simp, hrefused⟩
    · exact ⟨p :: before, after, rfl, List.forall_mem_cons.mpr ⟨hp, hbefore⟩, hrefused⟩

end

/-! ## Loading -/

section
variable {read : String → Except ReadFailure String} {files sources : List String}

theorem load_eq_ok_iff : load read files = .ok sources ↔ files.map read = sources.map .ok := by
  induction files generalizing sources with
  | nil => simp [load, eq_comm]
  | cons path files ih =>
      rw [load, List.map_cons]
      cases read path with
      | error failure => cases sources <;> simp
      | ok source =>
          cases sources with
          | nil => cases load read files <;> simp
          | cons source' sources =>
              rw [List.map_cons, List.cons.injEq, ← ih]
              cases load read files <;> simp

theorem load_eq_error_iff {cause : Cause} :
    load read files = .error cause ↔ ∃ path failure,
      IsFirst (fun p f => read p = .error f) files path failure ∧
        cause = .sourceUnreadable path failure.message := by
  induction files with
  | nil => simp [load, not_isFirst_nil]
  | cons path files ih =>
      simp only [isFirst_cons_iff]
      cases hread : read path with
      | error failure =>
          have hload : load read (path :: files) =
              .error (.sourceUnreadable path failure.message) := by
            rw [load, hread]
          rw [hload, Except.error.injEq]
          constructor
          · intro h
            exact ⟨path, failure, Or.inl ⟨rfl, rfl⟩, h.symm⟩
          · intro ⟨path', failure', hfirst, hcause⟩
            rcases hfirst with ⟨rfl, hfailure⟩ | ⟨hnot, _⟩
            · rw [hcause, Except.error.inj hfailure]
            · exact absurd rfl (hnot failure)
      | ok source =>
          cases hload : load read files with
          | error cause' => simpa [load, hread, hload] using ih
          | ok sources => simpa [load, hread, hload] using ih

end

/-! ## The run -/

theorem run_args (read : String → Except ReadFailure String) (l : CommandLine) :
    run read l.args =
      match load read l.files with
      | .ok sources => ⟨0, Cli.report (l.scripts ++ sources), ""⟩
      | .error cause => ⟨1, "", cause.headline⟩ := by
  rw [run, l.parse_args]
  rfl

theorem headline_sourceUnreadable (path reason : String) :
    (Cause.sourceUnreadable path reason).headline =
      "Error: SourceUnreadable (Could not read `" ++ path ++ "`: " ++ reason ++ ")\n" :=
  String.toList_inj.mp (by simp [Cause.headline, Cause.tip, Cause.name])

theorem allOrNothing_of_read (read : String → Except ReadFailure String) (l : CommandLine) :
    AllOrNothing (fun p f => read p = .error f) l.files (run read l.args) where
  report := by
    intro path failure hfirst
    rw [run_args, load_eq_error_iff.mpr ⟨path, failure, hfirst, rfl⟩]
    exact congrArg (Outcome.mk 1 "") (headline_sourceUnreadable path failure.message)
  first := by
    intro ⟨path, hmem, failure, hrefused⟩
    cases hload : load read l.files with
    | error cause =>
        obtain ⟨path', failure', hfirst, _⟩ := load_eq_error_iff.mp hload
        exact ⟨path', failure', hfirst⟩
    | ok sources =>
        -- then every file would have been read
        have hread : read path ∈ sources.map .ok := by
          rw [← load_eq_ok_iff.mp hload]
          exact List.mem_map_of_mem hmem
        rw [hrefused] at hread
        simp at hread
  ends_well := by
    intro hread
    rw [run_args]
    cases hload : load read l.files with
    | ok sources => exact ⟨rfl, rfl⟩
    | error cause =>
        obtain ⟨path, failure, ⟨before, after, hfiles, _, hrefused⟩, _⟩ :=
          load_eq_error_iff.mp hload
        exact absurd hrefused (hread path (by simp [hfiles]) failure)

/--
**A run lists all its sources, or it reports the first file that cannot be read and nothing
else.**

This holds whatever the system answers when a file is read. Where the files are those of a
tree, a file cannot be read if there is nothing at its path, if the path goes on behind a
file, if it leads to a directory, or if the file is no text.
-/
theorem allOrNothing_run (l : CommandLine) :
    (∀ read, AllOrNothing (fun p f => read p = .error f) l.files (run read l.args)) ∧
      ∀ t : FileTree, AllOrNothing t.Refuses l.files (run t.read l.args) := by
  refine ⟨fun read => allOrNothing_of_read read l, ?_⟩
  intro t
  have hrefuses : (fun p f => t.read p = .error f) = t.Refuses := by
    funext path failure
    exact propext FileTree.read_eq_error_iff
  exact hrefuses ▸ allOrNothing_of_read t.read l

example :
    run (fun path => if path = "a" then .ok "int" else if path = "b" then .error .directory
      else .error .missing) ["a", "b", "-s", "x", "c"] =
      ⟨1, "", "Error: SourceUnreadable (Could not read `b`: Is a directory (os error 21))\n"⟩ := by
  decide

end MiniLexer.Cli
