/-
# `TextGrammar.Proofs.Cli.Acceptance` — one file for three commands

`validate`, `lint` and `expand` begin with the same file, and each decides for
itself what to do about it.  They decide alike: a file that one of them
refuses is refused by all, with the same words.  The order of things matters
for this, since `lint` and `expand` read a second file, and a fault there must
not come first.

A file that is accepted is not spoken of again, in whatever format.  What is
reported then is told in full, so that it can be said what it is not:

    lintDiagnostics      an unknown format, the fault in the file of aliases,
                         or the findings
    expandDiagnostics    an unknown format, or the fault in the file of aliases

    accepted_alike       refused by all, or spared by all
-/
import TextGrammar.Proofs.Cli.Report
import TextGrammar.Proofs.Lint.Report

namespace TextGrammar.Cli

variable {tree : FileTree} {path : Text} {ds : List Diagnostic}

/-! ## Files that are refused -/

theorem exit_rejection (r : Rejection) : r.outcome.exit ≠ 0 := by
  cases r with
  | load d => exact Nat.one_ne_zero
  | invalid ds => exact Nat.succ_ne_zero 1
  | crash f => exact Nat.one_ne_zero

theorem render_out_rejection (r : Rejection) : r.outcome.out.render = [] := by
  cases r <;> rfl

theorem runValidate_of_error {r : Rejection} (h : (grammarAt tree path).2 = .error r) :
    runValidate tree path "text".toList = r.outcome := by
  rw [runValidate, h]
  rfl

theorem runLint_of_error {r : Rejection} (h : (grammarAt tree path).2 = .error r)
    (origin : Text) (file : Option Text) :
    runLint tree path origin file "text".toList = r.outcome := by
  rw [runLint, h]
  rfl

/-- The options for writing lines about the file at a path. -/
def ExpandOptions.plainly (o : ExpandOptions) (path : Text) : ExpandOptions :=
  { o with path := path, format := "text".toList, verbose := false }

/-- The options for the file at a path. -/
def ExpandOptions.reading (o : ExpandOptions) (path : Text) : ExpandOptions :=
  { o with path := path }

theorem runExpand_of_error {r : Rejection} (h : (grammarAt tree path).2 = .error r)
    (ambient : Twister) (o : ExpandOptions) :
    runExpand tree ambient (o.plainly path) = r.outcome := by
  have h' : (grammarAt tree (o.plainly path).path).2 = .error r := h
  rw [runExpand]
  simp only [h']
  rfl

theorem exit_validate_eq_zero_iff :
    (runValidate tree path "text".toList).exit = 0 ↔ ∃ g, (grammarAt tree path).2 = .ok g := by
  cases hg : (grammarAt tree path).2 with
  | error r =>
    rw [runValidate_of_error hg]
    exact iff_of_false (exit_rejection r) nofun
  | ok g =>
    refine iff_of_true ?_ ⟨g, rfl⟩
    rw [runValidate, hg]
    rfl

/-! ## Codes -/

/-- A diagnostic has the code of a file that cannot be loaded, or that of a
defect in it. -/
def Refusing (d : Diagnostic) : Prop :=
  (∃ f : GrammarFile.Fault, d.code = f.code) ∨ ∃ e : Validation.Defect, d.code = e.code

/-- The codes of files that are refused. -/
def refusalCodes : List Text :=
  ["E_FILE_NOT_FOUND", "E_UNSUPPORTED_FORMAT", "E_FILE_READ", "E_JSON_PARSE", "E_YAML_PARSE",
    "E_DUPLICATE_SYMBOL", "E_INVALID_TOP_LEVEL", "E_INVALID_KEY",
    "E_INVALID_TYPE"].map String.toList

theorem code_mem_of_refusing {d : Diagnostic} (h : Refusing d) : d.code ∈ refusalCodes := by
  rcases h with ⟨f, h⟩ | ⟨e, h⟩
  · rw [h]
    cases f with
    | parse format f =>
      have hcode : format.code ∈ refusalCodes := by cases format <;> decide
      have htwice : "E_DUPLICATE_SYMBOL".toList ∈ refusalCodes := by decide
      cases f with
      | notText f => exact hcode
      | json text f => cases f <;> first | exact htwice | exact hcode
      | yaml f => cases f <;> first | exact htwice | exact hcode
    | _ => exact List.contains_iff_mem.mp rfl
  · rw [h]
    cases e <;> exact List.contains_iff_mem.mp rfl

theorem not_refusing {d : Diagnostic} (h : d.code ∉ refusalCodes) : ¬ Refusing d :=
  fun hd => h (code_mem_of_refusing hd)

theorem refusing_of_rejects {r : Rejection} (h : Rejects path r) :
    ∀ d ∈ r.diagnostics, Refusing d := by
  intro d hd
  cases h with
  | crash _ => exact absurd hd List.not_mem_nil
  | @load f _ => exact .inl ⟨f, congrArg Diagnostic.code (List.mem_singleton.mp hd)⟩
  | invalid hvalid =>
    obtain ⟨-, rfl⟩ := Validation.validate_eq_error_iff.mp hvalid
    obtain ⟨e, -, rfl⟩ := List.mem_map.mp ((List.mergeSort_perm _ _).mem_iff.mp hd)
    exact .inr ⟨e, rfl⟩

theorem not_refusing_of_mem_lint {g : Grammar} {origin : Text} {modifiers : Option Registry}
    {file : Option Text} {d : Diagnostic} (h : d ∈ Lint.lint g origin modifiers file) :
    ¬ Refusing d := by
  obtain ⟨f, hf⟩ := Lint.code_of_mem_lint h
  apply not_refusing
  rw [hf, ← List.contains_iff_mem]
  cases f <;> exact Bool.false_ne_true

/-! ## What is left to report -/

/-- What there is to report on a file of aliases that cannot be used. -/
def aliasDiagnostics (path : Text) : AliasFile.Fault → List Diagnostic
  | .read .missing => [⟨.load, "E_MODIFIER_FILE_NOT_FOUND".toList,
      "modifier file not found".toList, some path, none, none⟩]
  | .defect d => [⟨.validation, "E_MODIFIER_FILE_INVALID".toList, d.message, some path, none, none⟩]
  | _ => []

/-- What there is to report on the file of aliases that is named, if one is. -/
def modifierDiagnostics (tree : FileTree) : Option Text → List Diagnostic
  | none => []
  | some [] => []
  | some path =>
    match AliasFile.registry tree (Path.ofText path) with
    | .ok _ => []
    | .error f => aliasDiagnostics path f

/-- What there is to report on a format there is not. -/
def formatDiagnostic (code : String) (format : Text) : Diagnostic :=
  ⟨.validation, code.toList,
    "unknown --format: ".toList ++ format ++ " (choose one of: text, json)".toList,
    none, none, none⟩

/-- What `lint` reports on a grammar. -/
def lintDiagnostics (tree : FileTree) (path : Text) (g : Grammar) (origin : Text)
    (file : Option Text) (format : Text) : List Diagnostic :=
  if isFormat format then
    match modifiersOf tree file with
    | .error _ => modifierDiagnostics tree file
    | .ok r => Lint.lint g origin (some r) (some path)
  else [formatDiagnostic "E_LINT_UNKNOWN_FORMAT" format]

/-- What `expand` reports on a grammar. -/
def expandDiagnostics (tree : FileTree) (o : ExpandOptions) : List Diagnostic :=
  if isFormat o.format then
    if o.noModifiers then [] else modifierDiagnostics tree o.modifierFile
  else [formatDiagnostic "E_EXPAND_UNKNOWN_FORMAT" o.format]

theorem not_refusing_of_mem_aliasDiagnostics {f : AliasFile.Fault} {d : Diagnostic}
    (h : d ∈ aliasDiagnostics path f) : ¬ Refusing d := by
  rw [aliasDiagnostics.eq_def] at h
  split at h
  · rw [List.mem_singleton.mp h]
    exact not_refusing (show "E_MODIFIER_FILE_NOT_FOUND".toList ∉ refusalCodes by decide)
  · rw [List.mem_singleton.mp h]
    exact not_refusing (show "E_MODIFIER_FILE_INVALID".toList ∉ refusalCodes by decide)
  · exact absurd h List.not_mem_nil

theorem not_refusing_of_mem_modifierDiagnostics {file : Option Text} {d : Diagnostic}
    (h : d ∈ modifierDiagnostics tree file) : ¬ Refusing d := by
  rw [modifierDiagnostics.eq_def] at h
  split at h
  · exact absurd h List.not_mem_nil
  · exact absurd h List.not_mem_nil
  · split at h
    · exact absurd h List.not_mem_nil
    · exact not_refusing_of_mem_aliasDiagnostics h

/-! ## Files that are accepted -/

/-- The items of the array of errors in a report. -/
def items (r : Json.Report) : List Json.Report :=
  match member? "errors" r with
  | some (.array items) => items
  | _ => []

/-- What was logged, a line for each entry. -/
def logged (logs : List LogEntry) : Text := logs.flatMap fun l => l.line ++ ['\n']

/-- A run in a format logs something at the lowest level and tells diagnostics,
and nothing more: as lines behind what it logs, or in JSON as the items of a
report.  It has not failed at the grammar file. -/
structure Shows (format : Text) (o : Outcome) (logs : List LogEntry) (ds : List Diagnostic) :
    Prop where
  level : ∀ l ∈ logs, "DEBUG ".toList <+: l.line
  lines : ∀ t, o.out = .text t →
    ∃ err, Prints err (Diagnostic.sort ds) ∧ o.err = logged logs ++ err
  report : ∀ r, o.out = .report r →
    format = "json".toList ∧ o.err = logged logs ∧ List.Forall₂ Itemises (items r) ds
  loaded : ∀ f, o.crash ≠ some (.loading f)

variable {format : Text} {o : Outcome}

theorem shows_of_text {t : Text} (hout : o.out = .text t) (herr : o.err = diagnosticLines ds)
    (hloaded : ∀ f, o.crash ≠ some (.loading f)) : Shows format o [] ds where
  level := List.forall_mem_nil _
  lines _ _ := ⟨diagnosticLines ds, prints_diagnosticLines ds, herr⟩
  report := by
    intro r hr
    rw [hout] at hr
    cases hr
  loaded := hloaded

theorem shows_of_report {r : Json.Report} {exit : Nat} (hformat : format = "json".toList)
    (hitems : List.Forall₂ Itemises (items r) ds) : Shows format (.reported exit r) [] ds where
  level := List.forall_mem_nil _
  lines _ ht := by cases ht
  report := by
    intro r' hr
    cases hr
    exact ⟨hformat, rfl, hitems⟩
  loaded _ h := by cases h

theorem diagnosticLines_nil : diagnosticLines [] = [] := by
  rw [diagnosticLines, Diagnostic.sort_of_pairwise List.Pairwise.nil]
  rfl

theorem shows_success (t : Text) : Shows format (.success t) [] [] :=
  shows_of_text rfl diagnosticLines_nil.symm nofun

theorem shows_refusal (exit : Nat) (ds : List Diagnostic) :
    Shows format (.refusal exit (diagnosticLines ds)) [] ds :=
  shows_of_text rfl rfl nofun

theorem shows_broken (f : AliasFile.Fault) : Shows format (.broken (.modifiers f)) [] [] := by
  refine shows_of_text rfl diagnosticLines_nil.symm ?_
  intro f' h
  cases h

theorem debug_prefix_line (l : LogEntry) : "DEBUG ".toList <+: l.line := by
  cases l with
  | loaded p symbols => exact ⟨_, rfl⟩
  | ceiling n => exact ⟨_, rfl⟩

/-- Log lines in front change nothing else. -/
theorem Shows.precededBy (h : Shows format o [] ds) (logs : List LogEntry) :
    Shows format (o.precededBy (logs.map LogEntry.line)) logs ds where
  level l _ := debug_prefix_line l
  lines := by
    intro t ht
    obtain ⟨err, hprints, herr⟩ := h.lines t ht
    refine ⟨err, hprints, ?_⟩
    rw [Outcome.precededBy, List.flatMap_map, herr]
    rfl
  report := by
    intro r hr
    obtain ⟨hformat, herr, hitems⟩ := h.report r hr
    refine ⟨hformat, ?_, hitems⟩
    rw [Outcome.precededBy, List.flatMap_map, herr]
    exact List.append_nil _
  loaded := h.loaded

theorem shows_aliasOutcome (path : Text) (f : AliasFile.Fault) :
    Shows format (aliasOutcome path f) [] (aliasDiagnostics path f) := by
  cases f with
  | read f =>
    cases f with
    | missing => exact shows_refusal 1 _
    | _ => exact shows_broken _
  | yaml f => exact shows_broken _
  | defect d => exact shows_refusal 2 _
  | undefinedName name => exact shows_broken _

/-- Where there are modifiers there is nothing to report. -/
theorem modifiersOf_spec (tree : FileTree) (file : Option Text) (format : Text) :
    match modifiersOf tree file with
    | .ok _ => modifierDiagnostics tree file = []
    | .error o => Shows format o [] (modifierDiagnostics tree file) := by
  match file with
  | none => exact rfl
  | some [] => exact rfl
  | some (c :: cs) =>
    cases hr : AliasFile.registry tree (Path.ofText (c :: cs)) with
    | ok r =>
      simp only [modifiersOf, modifierDiagnostics, hr]
      exact trivial
    | error f =>
      simp only [modifiersOf, modifierDiagnostics, hr]
      exact shows_aliasOutcome (c :: cs) f

theorem shows_lintOutcome (hready : Ready ds) :
    Shows format (lintOutcome (format = "json".toList) ds) [] ds := by
  by_cases hjson : format = "json".toList
  · rw [decide_eq_true hjson, lintOutcome, if_pos rfl]
    exact shows_of_report hjson (forall₂_itemises hready)
  · rw [decide_eq_false hjson]
    cases ds with
    | nil => exact shows_success _
    | cons d ds => exact shows_refusal 2 (d :: ds)

theorem shows_lint {g : Grammar} (h : (grammarAt tree path).2 = .ok g) (origin : Text)
    (file : Option Text) (format : Text) :
    Shows format (runLint tree path origin file format) []
      (lintDiagnostics tree path g origin file format) := by
  have hfile := modifiersOf_spec tree file format
  rw [runLint, lintDiagnostics, h]
  cases hformat : isFormat format with
  | false => exact shows_refusal 2 _
  | true =>
    cases hm : modifiersOf tree file with
    | error o =>
      rw [hm] at hfile
      exact hfile
    | ok r => exact shows_lintOutcome (ready_lint g origin (some r) (some path))

/-- Where there are modifiers for an expansion there is nothing to report. -/
theorem expandModifiers_spec (tree : FileTree) {o : ExpandOptions}
    (hformat : isFormat o.format = true) :
    match expandModifiers tree o with
    | .ok _ => expandDiagnostics tree o = []
    | .error e => Shows o.format e [] (expandDiagnostics tree o) := by
  rw [expandDiagnostics, if_pos hformat, expandModifiers]
  cases o.noModifiers with
  | true => exact rfl
  | false => exact modifiersOf_spec tree o.modifierFile o.format

theorem shows_expandWith (o : ExpandOptions) (g : Grammar) (r : Registry) (source : Twister) :
    Shows o.format (expandWith o g r source).2 [] [] := by
  rw [expandWith]
  by_cases hjson : o.format = "json".toList
  · rw [if_pos hjson]
    exact shows_of_report hjson .nil
  · rw [if_neg hjson]
    exact shows_success _

theorem runExpand_of_ok {g : Grammar} {o : ExpandOptions} (hformat : isFormat o.format = true)
    (h : (grammarAt tree o.path).2 = .ok g) (ambient : Twister) :
    ∃ (logs : List LogEntry) (outcome : Outcome), runExpand tree ambient o =
        (if o.verbose then outcome.precededBy (logs.map LogEntry.line) else outcome) ∧
      match expandModifiers tree o with
      | .error e => outcome = e
      | .ok r =>
        let source := (o.seed.map fun t => (Seed.text t).generator).getD ambient
        outcome = (expandWith o g r source).2 := by
  rw [runExpand]
  simp only [hformat, h, Bool.not_true, Bool.false_eq_true, if_false]
  cases expandModifiers tree o with
  | error e => exact ⟨_, e, rfl, rfl⟩
  | ok r => exact ⟨_, _, rfl, rfl⟩

theorem shows_expand {g : Grammar} (o : ExpandOptions) (h : (grammarAt tree o.path).2 = .ok g)
    (ambient : Twister) :
    ∃ logs, (o.verbose = false → logs = []) ∧
      Shows o.format (runExpand tree ambient o) logs (expandDiagnostics tree o) := by
  cases hformat : isFormat o.format with
  | false =>
    rw [runExpand, expandDiagnostics, hformat]
    exact ⟨[], fun _ => rfl, shows_refusal 2 _⟩
  | true =>
    obtain ⟨logs, outcome, hrun, houtcome⟩ := runExpand_of_ok hformat h ambient
    have hshows : Shows o.format outcome [] (expandDiagnostics tree o) := by
      have hspec := expandModifiers_spec tree hformat
      cases hm : expandModifiers tree o with
      | error e =>
        rw [hm] at hspec houtcome
        obtain rfl : outcome = e := houtcome
        exact hspec
      | ok r =>
        rw [hm] at hspec houtcome
        obtain rfl : outcome = (expandWith o g r _).2 := houtcome
        rw [show expandDiagnostics tree o = [] from hspec]
        exact shows_expandWith o g r _
    rw [hrun]
    cases o.verbose with
    | false => exact ⟨[], fun _ => rfl, hshows⟩
    | true => exact ⟨logs, fun hverbose => absurd hverbose (by decide), hshows.precededBy logs⟩

/-! ## Both -/

theorem not_refusing_formatDiagnostic {code : String} (h : code.toList ∉ refusalCodes)
    (format : Text) : ¬ Refusing (formatDiagnostic code format) :=
  not_refusing (d := formatDiagnostic code format) h

theorem not_refusing_of_mem_lintDiagnostics {g : Grammar} {origin : Text} {file : Option Text}
    {d : Diagnostic} (h : d ∈ lintDiagnostics tree path g origin file format) : ¬ Refusing d := by
  rw [lintDiagnostics] at h
  split at h
  · split at h
    · exact not_refusing_of_mem_modifierDiagnostics h
    · exact not_refusing_of_mem_lint h
  · rw [List.mem_singleton.mp h]
    exact not_refusing_formatDiagnostic (by decide) format

theorem not_refusing_of_mem_expandDiagnostics {o : ExpandOptions} {d : Diagnostic}
    (h : d ∈ expandDiagnostics tree o) : ¬ Refusing d := by
  rw [expandDiagnostics] at h
  split at h
  · split at h
    · exact absurd h List.not_mem_nil
    · exact not_refusing_of_mem_modifierDiagnostics h
  · rw [List.mem_singleton.mp h]
    exact not_refusing_formatDiagnostic (by decide) o.format

/-- **The three commands accept the same files.**  What one of them says of a
file that is refused, all of them say; of one that is accepted none says that
it cannot be loaded or has a defect, in no format and with or without what is
logged. -/
theorem accepted_alike (tree : FileTree) (path : Text) :
    let validate := runValidate tree path "text".toList
    let lint := runLint tree path
    let expand := runExpand tree
    (validate.exit ≠ 0 →
      (∃ r, Rejects path r ∧ validate = r.outcome ∧ ∀ d ∈ r.diagnostics, Refusing d) ∧
        validate.out.render = [] ∧ (∀ origin file, lint origin file "text".toList = validate) ∧
          ∀ ambient (o : ExpandOptions), expand ambient (o.plainly path) = validate) ∧
    (validate.exit = 0 →
      ∃ g, (grammarAt tree path).2 = .ok g ∧
        (∀ origin file format,
          let ds := lintDiagnostics tree path g origin file format
          Shows format (lint origin file format) [] ds ∧ ∀ d ∈ ds, ¬ Refusing d) ∧
        ∀ ambient o,
          let ds := expandDiagnostics tree o
          (∃ logs, (o.verbose = false → logs = []) ∧
            Shows o.format (expand ambient (o.reading path)) logs ds) ∧
          ∀ d ∈ ds, ¬ Refusing d) := by
  intro validate lint expand
  constructor
  · intro hexit
    cases hg : (grammarAt tree path).2 with
    | ok g => exact absurd (exit_validate_eq_zero_iff.mpr ⟨g, hg⟩) hexit
    | error r =>
      have hr : validate = r.outcome := runValidate_of_error hg
      have hrejects := rejects_of_grammarAt hg
      rw [hr]
      refine ⟨⟨r, hrejects, rfl, refusing_of_rejects hrejects⟩, render_out_rejection r, ?_, ?_⟩
      · exact runLint_of_error hg
      · exact runExpand_of_error hg
  · intro hexit
    obtain ⟨g, hg⟩ := exit_validate_eq_zero_iff.mp hexit
    refine ⟨g, hg, ?_, ?_⟩
    · intro origin file format
      exact ⟨shows_lint hg origin file format, fun d => not_refusing_of_mem_lintDiagnostics⟩
    · intro ambient o
      exact ⟨shows_expand (o.reading path) hg ambient,
        fun d => not_refusing_of_mem_expandDiagnostics⟩

/-- The tree of a grammar file and a file of aliases, in ASCII. -/
def twoFiles (grammar aliases : Text) : FileTree :=
  let bytes := fun (t : Text) => t.map fun c => UInt8.ofNat c.toNat
  .ofEntries [("g.yaml".toList, .file (bytes grammar)), ("m.yaml".toList, .file (bytes aliases))]

/-- A grammar with a defect and one without, beside aliases that are none. -/
theorem accepted_alike_twoFiles :
    let path := "g.yaml".toList
    let text := "text".toList
    let json := "json".toList
    let defective := twoFiles "a: 1\n".toList "b: c\n".toList
    let sound := twoFiles "a: b\n".toList "b: c\n".toList
    let ambient := Twister.ofKey (List.toArray [7])
    let origin := "#a#".toList
    let o : ExpandOptions := ⟨path, origin, none, 1, some "m.yaml".toList, false, json, true⟩
    let refused := runValidate defective path text
    (refused.exit = 2 ∧ refused.out.render = [] ∧
      runLint defective path origin (some "none.yaml".toList) text = refused ∧
      runExpand defective ambient (o.plainly path) = refused) ∧
    (runValidate sound path text).exit = 0 ∧
      (expandDiagnostics sound o).map Diagnostic.code = ["E_MODIFIER_FILE_INVALID".toList] ∧
      (∃ logs, Shows json (runExpand sound ambient o) logs (expandDiagnostics sound o)) ∧
      ∀ d ∈ expandDiagnostics sound o, ¬ Refusing d := by
  intro path text json defective sound ambient origin o refused
  have hrefused : refused.exit = 2 := by decide +kernel
  have hsound : (runValidate sound path text).exit = 0 := by decide +kernel
  have hcodes : (expandDiagnostics sound o).map Diagnostic.code =
      ["E_MODIFIER_FILE_INVALID".toList] := by decide +kernel
  have hne : refused.exit ≠ 0 := by
    rw [hrefused]
    exact Nat.succ_ne_zero 1
  obtain ⟨-, hout, hlint, hexpand⟩ := (accepted_alike defective path).1 hne
  obtain ⟨g, -, -, hshows⟩ := (accepted_alike sound path).2 hsound
  obtain ⟨⟨logs, -, hlogs⟩, hspared⟩ := hshows ambient o
  exact ⟨⟨hrefused, hout, hlint origin _, hexpand ambient o⟩, hsound, hcodes, ⟨logs, hlogs⟩,
    hspared⟩

end TextGrammar.Cli
