import MiniLexer.Proofs.AllOrNothing
import MiniLexer.Proofs.ZipperView

/-!
# What a run lists

A run knows its sources as one list, and what it prints is made of one table for each of
them. Each table comes from a scan of its own, whose tokens are read one by one until there
are none left; that these are all of them is the law of the cursor. So it does not matter
which of the sources are scripts and which are files, nor how the arguments are mixed, and
the listing of two lists of sources is the two listings with an empty line between.

An empty source has a table too, with no rows. Only where there is no source at all are the
demonstration's listed instead, and there the last law fails.
-/

namespace MiniLexer.Cli

/-- `l.Sources read sources`: all files of `l` can be read, and the sources are its scripts
and behind them the texts of its files. -/
def CommandLine.Sources (l : CommandLine) (read : String → Except ReadFailure String)
    (sources : List String) : Prop :=
  ∃ texts, l.files.map read = texts.map .ok ∧ sources = l.scripts ++ texts

/-- A source, and a row for each of its tokens: the text, two tabs and the kind. -/
def table (source : String) : String :=
  "parse:\t" ++ source ++ "\n" ++ "text\ttype\n" ++
    String.join ((tokenize source).tokens.toList.map fun t =>
      t.text ++ "\t\t" ++ t.kind.name ++ "\n")

/-! ## One source -/

/-- All tokens of a source are left when the reading of its rows begins. -/
theorem rows_tokenize (source : String) :
    (tokenize source).rows = (tokenize source).tokens.toList.map Token.row := by
  have hrest := TokenStream.rest_eq (s := tokenize source) (Nat.zero_le _)
  have hall : (tokenize source).rest.1 = (tokenize source).tokens := by
    rw [hrest]
    exact Array.extract_size
  rw [TokenStream.rows, hall]

theorem block_eq_table (source : String) : block source = table source := by
  rw [block, table, rows_tokenize, List.map_map]
  rfl

/-! ## All sources -/

variable {read : String → Except ReadFailure String} {l : CommandLine} {sources : List String}

theorem stdout_run_of_sources (h : l.Sources read sources) :
    (run read l.args).stdout = report sources := by
  obtain ⟨texts, hread, rfl⟩ := h
  rw [run_args, load_eq_ok_iff.mpr hread]

theorem report_of_ne_nil (h : sources ≠ []) :
    report sources = "\n".intercalate (sources.map table) := by
  rw [report, if_neg (by simpa using h), listing, funext block_eq_table]

theorem report_append {sources₁ sources₂ : List String} (h₁ : sources₁ ≠ []) (h₂ : sources₂ ≠ []) :
    report (sources₁ ++ sources₂) = report sources₁ ++ "\n" ++ report sources₂ := by
  rw [report_of_ne_nil (List.append_ne_nil_of_left_ne_nil h₁ _), report_of_ne_nil h₁,
    report_of_ne_nil h₂, List.map_append]
  exact String.intercalate_append_of_ne_nil (by simpa using h₁) (by simpa using h₂)

/--
**What a run prints is settled by the list of its sources.**

It is one table for each source with an empty line between two, or the four tables of the
demonstration if the list is empty. So if two runs are over lists that are not empty, then a
run over both lists prints what they print, with an empty line between.
-/
theorem stdout_run (h : l.Sources read sources) :
    (sources ≠ [] → (run read l.args).stdout = "\n".intercalate (sources.map table)) ∧
      (sources = [] → (run read l.args).stdout =
        "\n".intercalate (["int age = 45;", "inta age = 45;", "age >= 45;", "age > 45;"].map
          table)) ∧
      ∀ read₁ l₁ sources₁ read₂ l₂ sources₂,
        CommandLine.Sources l₁ read₁ sources₁ → CommandLine.Sources l₂ read₂ sources₂ →
        sources = sources₁ ++ sources₂ → sources₁ ≠ [] → sources₂ ≠ [] →
        (run read l.args).stdout =
          (run read₁ l₁.args).stdout ++ "\n" ++ (run read₂ l₂.args).stdout := by
  rw [stdout_run_of_sources h]
  refine ⟨report_of_ne_nil, ?_, ?_⟩
  · intro hnil
    have hdemo : demoSources ≠ [] := by decide
    rw [hnil]
    exact report_of_ne_nil hdemo
  · intro read₁ l₁ sources₁ read₂ l₂ sources₂ h₁ h₂ happend hne₁ hne₂
    rw [stdout_run_of_sources h₁, stdout_run_of_sources h₂, happend, report_append hne₁ hne₂]

theorem stdout_run_mixed :
    let read := fun path => if path = "f" then .ok "" else .error .missing
    (run read ["f", "-sint"]).stdout = "\n".intercalate [table "int", table ""] ∧
      (run read ["f", "-sint"]).stdout =
        (run read ["--script", "int"]).stdout ++ "\n" ++ (run read ["--", "f"]).stdout ∧
      (run read []).stdout =
        "\n".intercalate [table "int age = 45;", table "inta age = 45;", table "age >= 45;",
          table "age > 45;"] := by
  intro read
  have hattached : Attached .script "int" "-sint" := .short (by decide) (by decide)
  have hscript : Spells ["-sint"] [.setting .script "int"] := .part (.attached hattached) .nil
  have hfile : (Part.file "f").Written ["f"] := .file (Or.inr (by decide))
  have happart : (Part.setting .script "int").Written ["--script", "int"] :=
    .apart (by decide) (Or.inr (by decide))
  let both : CommandLine := ⟨_, _, .part hfile hscript, by decide, by decide⟩
  let script : CommandLine := ⟨_, _, .part happart .nil, by decide, by decide⟩
  let file : CommandLine := ⟨_, _, .operands ["f"], by decide, by decide⟩
  have hboth : both.Sources read ["int", ""] := ⟨[""], rfl, rfl⟩
  have hnone : CommandLine.Sources ⟨[], [], .nil, by decide, by decide⟩ read [] := ⟨[], rfl, rfl⟩
  exact ⟨(stdout_run hboth).1 (by decide),
    (stdout_run hboth).2.2 read script ["int"] read file [""] ⟨[], rfl, rfl⟩ ⟨[""], rfl, rfl⟩ rfl
      (by decide) (by decide),
    (stdout_run hnone).2.1 rfl⟩

end MiniLexer.Cli
