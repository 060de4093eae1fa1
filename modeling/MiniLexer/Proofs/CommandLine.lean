import MiniLexer.Cli.Arguments
import Mathlib.Tactic.MkIffOfInductiveProp

/-!
# Command lines that ask for a run

`parse` goes through the arguments from left to right with the options it has collected and,
perhaps, one that still waits for its value. This file says without a reader which command
lines ask for a run, and for which. A command line is made of parts (`Part`): a script, a log
filter, a file. There are a few ways to write a part (`Part.Written`), and a command line is
its parts written one after another in any order, with nothing but files behind `--`
(`Spells`). The run it asks for is the one with the scripts and the files of the parts, each
in their order.

`parse_eq_run_iff` says that `parse` takes these command lines for runs and no others. What is
said about every run can therefore be said about every `CommandLine`, which is such arguments
together with their parts.
-/

namespace MiniLexer.Cli

/-- It does not look like an option, so it can be a file or the value of the option before. -/
def Stands (text : String) : Prop := text = "-" ∨ text.toList.head? ≠ some '-'

/-- The names an option goes by. -/
def Setting.spellings : Setting → List String
  | .script => ["-s", "--script"]
  | .filter => ["--log"]

/-- What a command line says at one place. -/
inductive Part where
  | setting (s : Setting) (value : String)
  | file (path : String)
  deriving DecidableEq, Repr

/-- `Attached s value arg`: the option and its value are one argument. -/
inductive Attached : Setting → String → String → Prop where
  | equals {s : Setting} {name value : String} :
      name ∈ s.spellings → Attached s value (name ++ "=" ++ value)
  /-- Behind the short name no sign is needed, unless the value begins with one. -/
  | short {value : String} :
      value ≠ "" → value.toList.head? ≠ some '=' → Attached .script value ("-s" ++ value)

/-- `p.Written args`: these arguments say `p`. -/
inductive Part.Written : Part → List String → Prop where
  | apart {s : Setting} {name value : String} :
      name ∈ s.spellings → Stands value → Written (.setting s value) [name, value]
  | attached {s : Setting} {value arg : String} :
      Attached s value arg → Written (.setting s value) [arg]
  | file {path : String} : Stands path → Written (.file path) [path]

/-- `Spells args parts`: these arguments say the parts, from left to right. -/
inductive Spells : List String → List Part → Prop where
  | nil : Spells [] []
  | part {p : Part} {written args : List String} {parts : List Part} :
      p.Written written → Spells args parts → Spells (written ++ args) (p :: parts)
  | operands (paths : List String) : Spells ("--" :: paths) (paths.map .file)

namespace Part

def value? (s : Setting) : Part → Option String
  | setting s' value => if s' = s then some value else none
  | file _ => none

def path? : Part → Option String
  | setting .. => none
  | file path => some path

end Part

/-- The values that an option is given, in order. -/
def values (s : Setting) (parts : List Part) : List String := parts.filterMap (Part.value? s)

/-- The files that are given, in order. -/
def paths (parts : List Part) : List String := parts.filterMap Part.path?

/-- The options `o'` are `o` and what the parts add to them. The log filter is given at most
once, and no file has the empty name. -/
@[mk_iff adds_iff]
structure Options.Adds (o : Options) (parts : List Part) (o' : Options) : Prop where
  scripts : o'.scripts = o.scripts ++ values .script parts
  files : o'.files = o.files ++ paths parts
  filter : o'.filter.toList = o.filter.toList ++ values .filter parts
  named : "" ∉ paths parts

/-! ## The parts one by one -/

@[simp] theorem mem_spellings_script_iff {name : String} :
    name ∈ Setting.script.spellings ↔ name = "-s" ∨ name = "--script" := by
  simp [Setting.spellings]

@[simp] theorem mem_spellings_filter_iff {name : String} :
    name ∈ Setting.filter.spellings ↔ name = "--log" := by
  simp [Setting.spellings]

section
variable (s s' : Setting) (value path : String) (parts : List Part)

@[simp] theorem values_nil : values s [] = [] := rfl

@[simp] theorem values_setting : values s (.setting s' value :: parts) =
    if s' = s then value :: values s parts else values s parts := by
  by_cases h : s' = s
  · simp [values, Part.value?, h]
  · simp [values, Part.value?, h]

@[simp] theorem values_file : values s (.file path :: parts) = values s parts := rfl

@[simp] theorem paths_nil : paths [] = [] := rfl

@[simp] theorem paths_setting : paths (.setting s value :: parts) = paths parts := rfl

@[simp] theorem paths_file : paths (.file path :: parts) = path :: paths parts := rfl

end

namespace Options

/-- What one part does to the options. -/
def add (o : Options) : Part → Except Fault Options
  | .setting s value => o.set s value
  | .file path => o.addFile path

theorem adds_nil_iff {o o' : Options} : o.Adds [] o' ↔ o' = o := by
  obtain ⟨scripts, files, filter⟩ := o
  obtain ⟨scripts', files', filter'⟩ := o'
  cases filter <;> cases filter' <;> simp [adds_iff]

/-- More is added by adding the first part, if it may be added, and then the others. -/
theorem adds_cons_iff {o o' : Options} {p : Part} {parts : List Part} :
    o.Adds (p :: parts) o' ↔ ∃ o₁, o.add p = .ok o₁ ∧ o₁.Adds parts o' := by
  cases p with
  | setting s value =>
      cases s with
      | script => simp [adds_iff, add, set]
      | filter =>
          cases hfilter : o.filter with
          | none => simp [adds_iff, add, set, hfilter]
          | some first =>
              -- there is no room for a second filter
              have htwo : o'.filter.toList ≠ first :: value :: values .filter parts := by
                cases o'.filter with
                | none => simp
                | some last => simp
              simp [adds_iff, add, set, hfilter, htwo]
  | file path =>
      by_cases hpath : path = ""
      · simp [adds_iff, add, addFile, hpath]
      · simp [adds_iff, add, addFile, hpath, Ne.symm hpath]

theorem addFiles_eq_ok_iff {o o' : Options} {files : List String} :
    o.addFiles files = .ok o' ↔ o.Adds (files.map .file) o' := by
  induction files generalizing o with
  | nil =>
      rw [addFiles, List.map_nil, adds_nil_iff, Except.ok.injEq]
      exact eq_comm
  | cons path files ih =>
      rw [List.map_cons, adds_cons_iff, addFiles]
      cases hadd : o.addFile path with
      | ok o₁ => simp [add, hadd, ih]
      | error fault => simp [add, hadd]

end Options

/-! ## The form of an argument -/

/-- A name, and behind it the value that is attached to it. -/
def withValue (name : String) : Option String → String
  | none => name
  | some value => name ++ "=" ++ value

/-- The argument that has this form. -/
def Argument.text : Argument → String
  | .endOfOptions => "--"
  | .long name value => withValue ("--" ++ name) value
  | .short letter rest => String.ofList ('-' :: letter :: rest)
  | .operand text => text

namespace Argument

theorem text_ofLong (cs : List Char) : (ofLong cs).text.toList = '-' :: '-' :: cs := by
  have hsplit := List.takeWhile_append_dropWhile (p := (· ≠ '=')) (l := cs)
  unfold ofLong
  split
  · rename_i h
    rw [h, List.append_nil] at hsplit
    simp only [text, withValue, String.toList_append, String.toList_ofList, hsplit]
    rfl
  · rename_i d value h
    -- what is dropped before is all that comes before the first sign
    have hd := List.head?_dropWhile_not (· ≠ '=') cs
    rw [h] at hd hsplit
    obtain rfl : d = '=' := by simpa using hd
    simp only [text, withValue, String.toList_append, String.toList_ofList]
    conv =>
      rhs
      rw [← hsplit]
    rw [List.append_assoc, List.append_assoc]
    rfl

theorem ofLong_ne_operand (cs : List Char) (text : String) : ofLong cs ≠ .operand text := by
  unfold ofLong
  split
  · simp
  · simp

/-- No two arguments have one form. -/
theorem text_ofString (arg : String) : (ofString arg).text = arg := by
  unfold ofString
  split
  · rename_i h
    exact String.toList_inj.mp h.symm
  · rename_i cs _ h
    exact String.toList_inj.mp ((text_ofLong cs).trans h.symm)
  · rename_i c cs _ h
    exact String.toList_inj.mp (by simp [text, h])
  · rfl

theorem ofString_eq_operand_iff {arg text : String} :
    ofString arg = .operand text ↔ text = arg ∧ Stands arg := by
  constructor
  · intro h
    have htext := text_ofString arg
    rw [h] at htext
    refine ⟨htext, ?_⟩
    by_cases hhyphen : arg.toList.head? = some '-'
    · obtain ⟨cs, hcs⟩ := List.head?_eq_some_iff.mp hhyphen
      cases cs with
      | nil => exact Or.inl (String.toList_inj.mp hcs)
      | cons c cs =>
          -- a hyphen with something behind it makes an option
          exfalso
          unfold ofString at h
          rw [hcs] at h
          split at h
          · simp at h
          · exact ofLong_ne_operand _ _ h
          · simp at h
          · rename_i hshort
            exact hshort c cs rfl
    · exact Or.inr hhyphen
  · intro h
    obtain ⟨rfl, h⟩ := h
    unfold ofString
    rcases h with rfl | h
    · rfl
    · split
      · rename_i heq
        simp [heq] at h
      · rename_i heq
        simp [heq] at h
      · rename_i heq
        simp [heq] at h
      · rfl

theorem ofString_short (cs : List Char) :
    ofString (String.ofList ('-' :: 's' :: cs)) = .short 's' cs := by
  unfold ofString
  rw [String.toList_ofList]
  rfl

theorem ofString_long {name : String} (h : '=' ∉ name.toList) (value : String) :
    ofString ("--" ++ name ++ "=" ++ value) = .long name (some value) := by
  have hlist : ("--" ++ name ++ "=" ++ value).toList =
      '-' :: '-' :: (name.toList ++ '=' :: value.toList) := by
    simp [String.toList_append]
  have hname : ∀ c ∈ name.toList, decide (c ≠ '=') = true := by
    intro c hc
    simp only [decide_eq_true_eq]
    exact ne_of_mem_of_not_mem hc h
  have hne : name.toList ++ '=' :: value.toList ≠ [] := by simp
  have hof : ofString ("--" ++ name ++ "=" ++ value) =
      ofLong (name.toList ++ '=' :: value.toList) := by
    obtain ⟨c, cs, hcs⟩ := List.exists_cons_of_ne_nil hne
    unfold ofString
    rw [hlist, hcs]
    rfl
  rw [hof, ofLong, List.takeWhile_append_of_pos hname, List.dropWhile_append_of_pos hname]
  simp

end Argument

/-! ## Reading one argument -/

/-- `ReadsAs o arg r`: after the options `o`, the argument is read with this outcome. -/
inductive ReadsAs (o : Options) (arg : String) : Reading → Prop where
  | answer {request : Request} : (∀ o', request ≠ .run o') → ReadsAs o arg (.answer request)
  | operands : arg = "--" → ReadsAs o arg (.operands o)
  | waits {s : Setting} : arg ∈ s.spellings → ReadsAs o arg (.more o (some s))
  | sets {s : Setting} {value : String} {o' : Options} :
      Attached s value arg → o.set s value = .ok o' → ReadsAs o arg (.more o' none)
  | file {o' : Options} : Stands arg → o.addFile arg = .ok o' → ReadsAs o arg (.more o' none)

theorem setOrWait_eq_ok {o : Options} {s : Setting} {value : Option String} {r : Reading}
    (h : o.setOrWait s value = .ok r) :
    (value = none ∧ r = .more o (some s)) ∨
      ∃ v o', value = some v ∧ o.set s v = .ok o' ∧ r = .more o' none := by
  cases value with
  | none => exact Or.inl ⟨rfl, (Except.ok.inj h).symm⟩
  | some v =>
      rw [Options.setOrWait] at h
      cases hset : o.set s v with
      | error fault =>
          rw [hset] at h
          simp at h
      | ok o' =>
          rw [hset] at h
          exact Or.inr ⟨v, o', rfl, hset, (Except.ok.inj h).symm⟩

theorem readsAs_of_setOrWait {o : Options} {s : Setting} {name : String} {value : Option String}
    {r : Reading} (h : o.setOrWait s value = .ok r) (hname : name ∈ s.spellings) :
    ReadsAs o (withValue name value) r := by
  rcases setOrWait_eq_ok h with ⟨rfl, rfl⟩ | ⟨v, o', rfl, hset, rfl⟩
  · exact .waits hname
  · exact .sets (.equals hname) hset

theorem readsAs_of_readFlag {o : Options} {option arg : String} {request : Request}
    {value : Option String} {r : Reading} (h : readFlag option request value = .ok r)
    (hrequest : ∀ o', request ≠ .run o') : ReadsAs o arg r := by
  cases value with
  | none =>
      obtain rfl := Except.ok.inj h
      exact .answer hrequest
  | some v => simp [readFlag] at h

theorem readsAs_of_readArgument {o : Options} {arg : String} {r : Reading}
    (h : readArgument o (.ofString arg) = .ok r) : ReadsAs o arg r := by
  have htext := Argument.text_ofString arg
  cases ha : Argument.ofString arg with
  | endOfOptions =>
      rw [ha] at h htext
      obtain rfl := Except.ok.inj h
      exact .operands htext.symm
  | long name value =>
      rw [ha] at h htext
      rw [← htext]
      unfold readArgument at h
      dsimp only at h
      split at h
      · have hname : "--script" ∈ Setting.script.spellings := by decide
        exact readsAs_of_setOrWait h hname
      · have hname : "--log" ∈ Setting.filter.spellings := by decide
        exact readsAs_of_setOrWait h hname
      · exact readsAs_of_readFlag h (by simp)
      · exact readsAs_of_readFlag h (by simp)
      · simp at h
  | short letter rest =>
      have hname : "-s" ∈ Setting.script.spellings := by decide
      rw [ha] at h htext
      unfold readArgument at h
      dsimp only at h
      split at h
      · rw [← htext]
        exact readsAs_of_setOrWait h hname
      · rename_i value
        have harg : arg = withValue "-s" (some (String.ofList value)) := by
          rw [← htext]
          exact String.toList_inj.mp (by simp [Argument.text, withValue])
        rw [harg]
        exact readsAs_of_setOrWait h hname
      · rename_i hnil heq
        rcases setOrWait_eq_ok h with ⟨hnone, -⟩ | ⟨v, o', hv, hset, rfl⟩
        · simp at hnone
        · obtain rfl := Option.some.inj hv
          have harg : arg = "-s" ++ String.ofList rest := by
            rw [← htext]
            exact String.toList_inj.mp (by simp [Argument.text])
          rw [harg]
          refine .sets (.short ?_ ?_) hset
          · intro hempty
            exact hnil (String.ofList_eq_empty_iff.mp hempty)
          · intro hhead
            rw [String.toList_ofList] at hhead
            obtain ⟨cs, hcs⟩ := List.head?_eq_some_iff.mp hhead
            exact heq cs hcs
      · obtain rfl := Except.ok.inj h
        exact .answer (by simp)
      · obtain rfl := Except.ok.inj h
        exact .answer (by simp)
      · simp at h
  | operand path =>
      obtain ⟨rfl, hstands⟩ := Argument.ofString_eq_operand_iff.mp ha
      rw [ha] at h
      unfold readArgument at h
      dsimp only at h
      cases hadd : o.addFile path with
      | error fault =>
          rw [hadd] at h
          simp at h
      | ok o' =>
          rw [hadd] at h
          obtain rfl := Except.ok.inj h
          exact .file hstands hadd

theorem set_of_readValue {o : Options} {s : Setting} {arg : String} {r : Reading}
    (h : readValue o s (.ofString arg) = .ok r) :
    ∃ o', Stands arg ∧ o.set s arg = .ok o' ∧ r = .more o' none := by
  cases ha : Argument.ofString arg with
  | endOfOptions => simp [ha, readValue] at h
  | long name value => simp [ha, readValue] at h
  | short letter rest => simp [ha, readValue] at h
  | operand value =>
      obtain ⟨rfl, hstands⟩ := Argument.ofString_eq_operand_iff.mp ha
      rw [ha, readValue] at h
      rcases setOrWait_eq_ok h with ⟨hnone, -⟩ | ⟨v, o', hv, hset, rfl⟩
      · simp at hnone
      · obtain rfl := Option.some.inj hv
        exact ⟨o', hstands, hset, rfl⟩

theorem readArgument_of_attached {o o' : Options} {s : Setting} {value arg : String}
    (h : Attached s value arg) (hset : o.set s value = .ok o') :
    readArgument o (.ofString arg) = .ok (.more o' none) := by
  have hwait : o.setOrWait s (some value) = .ok (.more o' none) := by
    rw [Options.setOrWait, hset]
  cases h with
  | equals hname =>
      cases s with
      | script =>
          rcases mem_spellings_script_iff.mp hname with rfl | rfl
          · have hform : "-s" ++ "=" ++ value =
                String.ofList ('-' :: 's' :: '=' :: value.toList) :=
              String.toList_inj.mp (by simp)
            rw [hform, Argument.ofString_short]
            simpa [readArgument] using hwait
          · rw [show "--script" = "--" ++ "script" from rfl,
              Argument.ofString_long (by decide) value]
            exact hwait
      | filter =>
          rw [mem_spellings_filter_iff.mp hname, show "--log" = "--" ++ "log" from rfl,
            Argument.ofString_long (by decide) value]
          exact hwait
  | short hne hhead =>
      have hform : "-s" ++ value = String.ofList ('-' :: 's' :: value.toList) :=
        String.toList_inj.mp (by simp)
      rw [hform, Argument.ofString_short]
      cases hvalue : value.toList with
      | nil => exact absurd (String.toList_inj.mp hvalue) hne
      | cons c cs =>
          -- the sign would be taken for the one between the name and the value
          have hc : c ≠ '=' := by
            intro hc
            simp [hvalue, hc] at hhead
          rw [← hwait, ← String.ofList_toList (s := value), hvalue]
          simp [readArgument, hc]

theorem readArgument_of_spelling {s : Setting} {name : String} (h : name ∈ s.spellings)
    (o : Options) : readArgument o (.ofString name) = .ok (.more o (some s)) := by
  cases s with
  | script =>
      rcases mem_spellings_script_iff.mp h with rfl | rfl
      · rfl
      · rfl
  | filter =>
      rw [mem_spellings_filter_iff.mp h]
      rfl

theorem readArgument_of_stands {path : String} (h : Stands path) {o o' : Options}
    (hadd : o.addFile path = .ok o') :
    readArgument o (.ofString path) = .ok (.more o' none) := by
  rw [Argument.ofString_eq_operand_iff.mpr ⟨rfl, h⟩, readArgument, hadd]

/-! ## Reading a command line -/

section
variable {o o' : Options} {arg : String} {pending : Option Setting}

theorem parseFrom_of_readArgument (h : readArgument o (.ofString arg) = .ok (.more o' pending))
    (args : List String) : parseFrom o none (arg :: args) = parseFrom o' pending args := by
  simp [parseFrom, h]

theorem parseFrom_of_readValue {s : Setting}
    (h : readValue o s (.ofString arg) = .ok (.more o' pending)) (args : List String) :
    parseFrom o (some s) (arg :: args) = parseFrom o' pending args := by
  simp [parseFrom, h]

end

theorem parseFrom_of_written {p : Part} {written : List String} (h : p.Written written)
    {o o' : Options} (hadd : o.add p = .ok o') (args : List String) :
    parseFrom o none (written ++ args) = parseFrom o' none args := by
  cases h with
  | @apart s name value hname hstands =>
      have hvalue : readValue o s (.ofString value) = .ok (.more o' none) := by
        rw [Argument.ofString_eq_operand_iff.mpr ⟨rfl, hstands⟩, readValue, Options.setOrWait]
        rw [show o.set s value = .ok o' from hadd]
      exact (parseFrom_of_readArgument (readArgument_of_spelling hname o) _).trans
        (parseFrom_of_readValue hvalue args)
  | attached hattached =>
      exact parseFrom_of_readArgument (readArgument_of_attached hattached hadd) args
  | file hstands =>
      exact parseFrom_of_readArgument (readArgument_of_stands hstands hadd) args

theorem parseFrom_of_spells {args : List String} {parts : List Part} (h : Spells args parts)
    {o o' : Options} (hadds : o.Adds parts o') : parseFrom o none args = .ok (.run o') := by
  induction h generalizing o with
  | nil =>
      rw [Options.adds_nil_iff.mp hadds]
      rfl
  | part hwritten hspells ih =>
      obtain ⟨o₁, hadd, hadds₁⟩ := Options.adds_cons_iff.mp hadds
      rw [parseFrom_of_written hwritten hadd, ih hadds₁]
  | operands paths =>
      have hfiles := Options.addFiles_eq_ok_iff.mpr hadds
      have hend : Argument.ofString "--" = .endOfOptions := rfl
      simp [parseFrom, hend, readArgument, hfiles]

theorem exists_spells_append {p : Part} {written args : List String} (h : p.Written written)
    {o o₁ o' : Options} (hadd : o.add p = .ok o₁)
    (hrest : ∃ parts, Spells args parts ∧ o₁.Adds parts o') :
    ∃ parts, Spells (written ++ args) parts ∧ o.Adds parts o' := by
  obtain ⟨parts, hspells, hadds⟩ := hrest
  exact ⟨p :: parts, .part h hspells, Options.adds_cons_iff.mpr ⟨o₁, hadd, hadds⟩⟩

/-- `Held pending args`: these arguments have been read and are not used up, as an option
waits for its value. -/
inductive Held : Option Setting → List String → Prop where
  | nothing : Held none []
  | name {s : Setting} {name : String} : name ∈ s.spellings → Held (some s) [name]

theorem exists_spells_of_parseFrom {o o' : Options} {pending : Option Setting}
    {held args : List String} (hheld : Held pending held)
    (h : parseFrom o pending args = .ok (.run o')) :
    ∃ parts, Spells (held ++ args) parts ∧ o.Adds parts o' := by
  induction args generalizing o pending held with
  | nil =>
      cases hheld with
      | nothing =>
          obtain rfl : o = o' := by simpa [parseFrom] using h
          exact ⟨[], .nil, Options.adds_nil_iff.mpr rfl⟩
      | name hname => simp [parseFrom] at h
  | cons arg args ih =>
      cases hheld with
      | nothing =>
          cases hread : readArgument o (.ofString arg) with
          | error fault => simp [parseFrom, hread] at h
          | ok r =>
              cases readsAs_of_readArgument hread with
              | answer hrequest => simp [parseFrom, hread, hrequest] at h
              | operands harg =>
                  cases hfiles : o.addFiles args with
                  | error fault => simp [parseFrom, hread, hfiles] at h
                  | ok o₁ =>
                      obtain rfl : o₁ = o' := by simpa [parseFrom, hread, hfiles] using h
                      rw [harg]
                      exact ⟨_, .operands args, Options.addFiles_eq_ok_iff.mp hfiles⟩
              | waits hname =>
                  rw [parseFrom_of_readArgument hread] at h
                  exact ih (.name hname) h
              | sets hattached hset =>
                  rw [parseFrom_of_readArgument hread] at h
                  exact exists_spells_append (.attached hattached) hset (ih .nothing h)
              | file hstands hadd =>
                  rw [parseFrom_of_readArgument hread] at h
                  exact exists_spells_append (.file hstands) hadd (ih .nothing h)
      | @name s _ hname =>
          cases hread : readValue o s (.ofString arg) with
          | error fault => simp [parseFrom, hread] at h
          | ok r =>
              obtain ⟨o₁, hstands, hset, rfl⟩ := set_of_readValue hread
              rw [parseFrom_of_readValue hread] at h
              exact exists_spells_append (.apart hname hstands) hset (ih .nothing h)

/-- **The command lines that ask for a run**, and the runs they ask for. -/
theorem parse_eq_run_iff {args : List String} {o : Options} :
    parse args = .ok (.run o) ↔ ∃ parts, Spells args parts ∧ ({} : Options).Adds parts o := by
  constructor
  · exact exists_spells_of_parseFrom .nothing
  · intro ⟨parts, hspells, hadds⟩
    exact parseFrom_of_spells hspells hadds

example : parse ["-s=x", "a", "--log", "off", "-sy", "--", "-b"] =
    .ok (.run { scripts := ["x", "y"], files := ["a", "-b"], filter := some "off" }) := by
  rfl

/-- A command line that asks for a run, and what it says. -/
structure CommandLine where
  args : List String
  parts : List Part
  spells : Spells args parts
  /-- No file has the empty name. -/
  named : "" ∉ paths parts
  /-- There is one log filter at most. -/
  filtered : (values .filter parts).length ≤ 1

namespace CommandLine

def scripts (l : CommandLine) : List String := values .script l.parts

def files (l : CommandLine) : List String := paths l.parts

def options (l : CommandLine) : Options :=
  { scripts := l.scripts, files := l.files, filter := (values .filter l.parts).head? }

theorem parse_args (l : CommandLine) : parse l.args = .ok (.run l.options) := by
  have hfilter : (values .filter l.parts).head?.toList = values .filter l.parts := by
    have hfiltered := l.filtered
    cases hvalues : values .filter l.parts with
    | nil => rfl
    | cons value rest =>
        rw [hvalues, List.length_cons] at hfiltered
        rw [List.eq_nil_of_length_eq_zero (l := rest) (by omega)]
        rfl
  exact parse_eq_run_iff.mpr ⟨l.parts, l.spells, ⟨rfl, rfl, hfilter, l.named⟩⟩

/-- There are no other arguments that ask for a run. -/
theorem exists_of_parse {args : List String} {o : Options} (h : parse args = .ok (.run o)) :
    ∃ l : CommandLine, l.args = args ∧ l.options = o := by
  obtain ⟨parts, hspells, hadds⟩ := parse_eq_run_iff.mp h
  have hfiltered : (values .filter parts).length ≤ 1 := by
    have hfilter : o.filter.toList = values .filter parts := hadds.filter
    rw [← hfilter]
    cases o.filter with
    | none => exact Nat.zero_le 1
    | some value => exact Nat.le_refl 1
  refine ⟨⟨args, parts, hspells, hadds.named, hfiltered⟩, rfl, ?_⟩
  have hparse := parse_args ⟨args, parts, hspells, hadds.named, hfiltered⟩
  rw [h, Except.ok.injEq, Request.run.injEq] at hparse
  exact hparse.symm

/-- Any scripts can be given, and any files that have a name. -/
theorem exists_of_lists (scripts : List String) {files : List String} (h : "" ∉ files) :
    ∃ l : CommandLine, l.scripts = scripts ∧ l.files = files := by
  have hfiles : ∀ s, values s (files.map .file) = [] ∧ paths (files.map .file) = files := by
    intro s
    induction files with
    | nil => exact ⟨rfl, rfl⟩
    | cons path files ih =>
        obtain ⟨hvalues, hpaths⟩ := ih (List.not_mem_of_not_mem_cons h)
        simp [hvalues, hpaths]
  induction scripts with
  | nil =>
      exact ⟨⟨"--" :: files, files.map .file, .operands files, by rwa [(hfiles .script).2],
        by simp [hfiles]⟩, (hfiles .script).1, (hfiles .script).2⟩
  | cons script scripts ih =>
      obtain ⟨l, hscripts, hpaths⟩ := ih
      refine ⟨⟨["--script" ++ "=" ++ script] ++ l.args, .setting .script script :: l.parts,
        .part (.attached (.equals (by decide))) l.spells, l.named, ?_⟩, ?_, hpaths⟩
      · simpa using l.filtered
      · simpa [CommandLine.scripts] using hscripts

end CommandLine

end MiniLexer.Cli
