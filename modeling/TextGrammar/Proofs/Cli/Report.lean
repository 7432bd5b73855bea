/-
# `TextGrammar.Proofs.Cli.Report` — the two formats of a report

`validate` and `lint` write what they find as lines or as a report in JSON.
The lines are put in order first and the report is not: it lists what it is
given.  Both show the same things in the same order nevertheless, for whatever
is given to either of them is ready to be shown (`Ready`): a load error stands
alone, the defects of a grammar and the findings of `lint` are sorted where
they are collected, and no list is ever made of both.

    formats_agree   the exit, the fault and the diagnostics are the same in
                    both formats, and which runs write a report

What a run leaves is told by its characters: the lines by what stands in each of
them (`Prints`), and the report by what a parser reads in it (`Agree.reads`).
-/
import TextGrammar.Proofs.Cli.Grammar
import TextGrammar.Proofs.Json.Printer

namespace TextGrammar.Cli

variable {ds : List Diagnostic} {tree : FileTree} {path : Text}

/-! ## Members of reports -/

/-- The member of a report with a name. -/
def member? (name : String) : Json.Report → Option Json.Report
  | .object members => Assoc.get? members name.toList
  | _ => none

/-- An item of a report is about a diagnostic. -/
structure Itemises (item : Json.Report) (d : Diagnostic) : Prop where
  code : member? "code" item = some (.text d.code)
  message : member? "message" item = some (.text d.message)
  file : member? "file" item = some (d.file.elim .null .text)
  symbol : member? "symbol" item = some (d.symbol.elim .null .text)
  index : d.index = none ∧ member? "index" item = some .null ∨
    ∃ n : Nat, d.index = some n ∧ member? "index" item = some (.count n)

/-- A report that goes with an exit code lists diagnostics and counts them. -/
structure Lists (r : Json.Report) (exit : Nat) (ds : List Diagnostic) : Prop where
  errors : ∃ items, member? "errors" r = some (.array items) ∧ List.Forall₂ Itemises items ds
  count : member? "error_count" r = some (.count ds.length)
  ok : member? "ok" r = some (.flag (decide (exit = 0)))

/-- What is written about diagnostics is a line for each of them, in which
control sequences are left out. -/
structure Prints (err : Text) (ds : List Diagnostic) : Prop where
  lines : err = ds.flatMap fun d => Text.withoutSequences d.line ++ ['\n']
  tells : ∀ d ∈ ds, Diagnostic.Tells d.line d
  whole : ∀ d ∈ ds, '\x1b' ∉ d.line → Text.withoutSequences d.line = d.line

/-- What a command leaves when it writes lines, and what it leaves when it
writes a report, which is read back from its characters.  Without a report the
two do not differ. -/
structure Agree (lines json : Outcome) : Prop where
  exit : json.exit = lines.exit
  crash : json.crash = lines.crash
  report : ∀ r, json.out = .report r →
    json.out.render = r.render 0 ++ ['\n'] ∧ ∃ ds, Prints lines.err ds ∧ Lists r json.exit ds
  reads : ∀ r, json.out = .report r → r.Short →
    Json.parse json.out.render = .ok r.document.value
  noReport : (∀ r, json.out ≠ .report r) → json = lines

theorem Agree.refl_of_text {o : Outcome} {t : Text} (h : o.out = .text t) : Agree o o where
  exit := rfl
  crash := rfl
  report := by
    intro r hr
    rw [h] at hr
    cases hr
  reads := by
    intro r hr
    rw [h] at hr
    cases hr
  noReport _ := rfl

/-- A run ends with a report, or with a fault that no command answers for. -/
def Reports (o : Outcome) : Prop := (∃ r, o.out = .report r) ∨ ∃ f, o.crash = some f

/-! ## Diagnostics that can be shown as they are -/

/-- Diagnostics are in order, and where they have a number it counts from
zero. -/
structure Ready (ds : List Diagnostic) : Prop where
  sorted : Diagnostic.sort ds = ds
  index : ∀ d ∈ ds, d.index = none ∨ ∃ n : Nat, d.index = some n

theorem ready_singleton {d : Diagnostic} (h : d.index = none) : Ready [d] where
  sorted := Diagnostic.sort_singleton d
  index := by
    intro d' hd'
    rw [List.mem_singleton.mp hd']
    exact .inl h

theorem ready_sort (h : ∀ d ∈ ds, d.index = none ∨ ∃ n : Nat, d.index = some n) :
    Ready (Diagnostic.sort ds) where
  sorted := Diagnostic.sort_sort ds
  index := by
    intro d hd
    exact h d ((List.mergeSort_perm ds _).mem_iff.mp hd)

theorem ready_of_validate {raw : List (Value × Value)} {file : Option Text}
    (h : Validation.validate raw file = .error ds) : Ready ds := by
  obtain ⟨-, rfl⟩ := Validation.validate_eq_error_iff.mp h
  refine ready_sort ?_
  intro d hd
  obtain ⟨defect, -, rfl⟩ := List.mem_map.mp hd
  cases defect with
  | key k => exact .inl rfl
  | candidates symbol v => exact .inl rfl
  | candidate symbol i v => exact .inr ⟨i, rfl⟩

theorem ready_lint (g : Grammar) (origin : Text) (modifiers : Option Registry)
    (file : Option Text) : Ready (Lint.lint g origin modifiers file) := by
  refine ready_sort ?_
  intro d hd
  rw [Lint.found, List.mem_append, List.mem_append] at hd
  rcases hd with (hd | hd) | hd
  · obtain ⟨symbol, -, rfl⟩ := List.mem_map.mp hd
    exact .inl rfl
  · obtain ⟨site, -, hd⟩ := List.mem_flatMap.mp hd
    obtain ⟨f, -, rfl⟩ := List.mem_map.mp hd
    obtain ⟨symbol, index, rule⟩ := site
    cases index with
    | none => exact .inl rfl
    | some i => exact .inr ⟨i, rfl⟩
  · obtain ⟨symbol, -, rfl⟩ := List.mem_map.mp hd
    exact .inl rfl

theorem prints_diagnosticLines (ds : List Diagnostic) :
    Prints (diagnosticLines ds) (Diagnostic.sort ds) where
  lines := rfl
  tells d _ := d.tells_line
  whole _ _ := Text.withoutSequences_of_not_mem

theorem prints_of_ready (h : Ready ds) : Prints (diagnosticLines ds) ds := by
  have hprints := prints_diagnosticLines ds
  rwa [h.sorted] at hprints

theorem prints_nil : Prints [] [] where
  lines := rfl
  tells _ h := absurd h List.not_mem_nil
  whole _ h := absurd h List.not_mem_nil

theorem itemises_diagnosticReport {d : Diagnostic}
    (h : d.index = none ∨ ∃ n : Nat, d.index = some n) : Itemises (diagnosticReport d) d where
  code := rfl
  message := rfl
  file := rfl
  symbol := rfl
  index := by
    rcases h with h | ⟨n, h⟩
    · refine .inl ⟨h, ?_⟩
      rw [show member? "index" (diagnosticReport d) = some (indexReport d.index) from rfl, h]
      rfl
    · refine .inr ⟨n, h, ?_⟩
      rw [show member? "index" (diagnosticReport d) = some (indexReport d.index) from rfl, h]
      rfl

theorem forall₂_itemises (h : Ready ds) :
    List.Forall₂ Itemises (ds.map diagnosticReport) ds := by
  rw [List.forall₂_map_left_iff, List.forall₂_same]
  intro d hd
  exact itemises_diagnosticReport (h.index d hd)

/-! ## The reports of the commands -/

/-- A report makes a list of any diagnostics that it is given, and names each
of its members once. -/
structure Faithful (report : List Diagnostic → Json.Report) : Prop where
  lists : ∀ ds exit, Ready ds → (ds = [] ↔ exit = 0) → Lists (report ds) exit ds
  keysOnce : ∀ ds, (report ds).document.KeysOnce

theorem isEmpty_eq_decide {exit : Nat} (h : ds = [] ↔ exit = 0) :
    ds.isEmpty = decide (exit = 0) := by
  rw [Bool.eq_iff_iff, List.isEmpty_iff, decide_eq_true_iff, h]

theorem keysOnce_textOrNull (t : Option Text) : (textOrNull t).document.KeysOnce := by
  cases t with
  | none => exact Json.Document.keysOnce_scalar .null
  | some t => exact Json.Report.keysOnce_text t

theorem keysOnce_indexReport (index : Option Int) : (indexReport index).document.KeysOnce := by
  match index with
  | none | some (.negSucc _) => exact Json.Document.keysOnce_scalar .null
  | some (.ofNat n) => exact Json.Document.keysOnce_scalar (.int n)

theorem keysOnce_diagnosticReport (d : Diagnostic) : (diagnosticReport d).document.KeysOnce := by
  refine Json.Report.keysOnce_object ?_ ?_
  · show (["code", "message", "file", "symbol", "index", "severity", "source"].map
      String.toList).Nodup
    decide
  · simp only [List.forall_mem_cons]
    exact ⟨Json.Report.keysOnce_text _, Json.Report.keysOnce_text _, keysOnce_textOrNull _,
      keysOnce_textOrNull _, keysOnce_indexReport _, Json.Report.keysOnce_text _,
      Json.Report.keysOnce_text _, List.forall_mem_nil _⟩

theorem keysOnce_members (command : String) (ok : Bool) (ds : List Diagnostic) :
    ∀ m ∈ commonMembers command ok ++ errorMembers ds, m.2.document.KeysOnce := by
  have hflag : (Json.Report.flag ok).document.KeysOnce :=
    Json.Document.keysOnce_scalar (.bool ok)
  have hcount : (Json.Report.count ds.length).document.KeysOnce :=
    Json.Document.keysOnce_scalar (.int ds.length)
  have hitems : (Json.Report.array (ds.map diagnosticReport)).document.KeysOnce := by
    refine Json.Report.keysOnce_array (List.forall_mem_map.mpr ?_)
    exact fun d _ => keysOnce_diagnosticReport d
  simp only [commonMembers, errorMembers, List.cons_append, List.nil_append, List.forall_mem_cons]
  exact ⟨Json.Report.keysOnce_text _, Json.Report.keysOnce_text _, hflag, hcount, hitems,
    List.forall_mem_nil _⟩

theorem keysOnce_summaryReport (g : Grammar) : (summaryReport g).document.KeysOnce := by
  have hcount : ∀ n : Nat, (Json.Report.count n).document.KeysOnce := fun n =>
    Json.Document.keysOnce_scalar (.int n)
  have hsymbols : (Json.Report.array ((Text.sort g.keys).map .text)).document.KeysOnce := by
    refine Json.Report.keysOnce_array (List.forall_mem_map.mpr ?_)
    exact fun t _ => Json.Report.keysOnce_text t
  refine Json.Report.keysOnce_object ?_ ?_
  · show (["symbol_count", "rule_count", "symbols"].map String.toList).Nodup
    decide
  · simp only [List.forall_mem_cons]
    exact ⟨hcount _, hcount _, hsymbols, List.forall_mem_nil _⟩

theorem faithful_validateReport {summary : Json.Report} (h : summary.document.KeysOnce) :
    Faithful (validateReport · summary) where
  lists := by
    intro ds exit hready hexit
    refine ⟨⟨_, rfl, forall₂_itemises hready⟩, rfl, ?_⟩
    rw [← isEmpty_eq_decide hexit]
    rfl
  keysOnce := by
    intro ds
    refine Json.Report.keysOnce_object ?_ ?_
    · show (["tool", "command", "ok", "error_count", "errors", "summary"].map String.toList).Nodup
      decide
    · exact List.forall_mem_append.mpr ⟨keysOnce_members _ _ ds, List.forall_mem_singleton.mpr h⟩

theorem faithful_lintReport : Faithful lintReport where
  lists := by
    intro ds exit hready hexit
    refine ⟨⟨_, rfl, forall₂_itemises hready⟩, rfl, ?_⟩
    rw [← isEmpty_eq_decide hexit]
    rfl
  keysOnce := by
    intro ds
    refine Json.Report.keysOnce_object ?_ (keysOnce_members _ _ ds)
    show (["tool", "command", "ok", "error_count", "errors"].map String.toList).Nodup
    decide

theorem render_reported (exit : Nat) (r : Json.Report) :
    (Outcome.reported exit r).out.render = r.render 0 ++ ['\n'] := by
  show Text.withoutSequences (r.render 0) ++ ['\n'] = r.render 0 ++ ['\n']
  rw [Text.withoutSequences_of_not_mem (r.escape_not_mem_render 0)]

/-- Diagnostics that are ready are shown alike as lines and in a report. -/
theorem agree_of_ready {report : List Diagnostic → Json.Report} (hreport : Faithful report)
    {exit : Nat} {lines : Outcome} (hready : Ready ds) (hexit : ds = [] ↔ exit = 0)
    (hlines : lines.exit = exit) (hcrash : lines.crash = none)
    (herr : Prints lines.err ds) : Agree lines (.reported exit (report ds)) where
  exit := hlines.symm
  crash := hcrash.symm
  report := by
    intro r hr
    cases hr
    exact ⟨render_reported exit (report ds), ds, herr, hreport.lists ds exit hready hexit⟩
  reads := by
    intro r hr hshort
    cases hr
    rw [render_reported]
    exact Json.Report.parse_render (hreport.keysOnce ds) hshort
  noReport h := absurd rfl (h (report ds))

/-! ## Grammars that are refused -/

theorem agree_rejection {report : List Diagnostic → Json.Report} (hreport : Faithful report)
    {r : Rejection} (h : Rejects path r) : Agree r.outcome (r.reported report) := by
  cases h with
  | crash _ => exact Agree.refl_of_text rfl
  | @load f _ =>
    have hready : Ready [f.diagnostic (Path.ofText path)] := ready_singleton rfl
    exact agree_of_ready hreport hready (iff_of_false (List.cons_ne_nil _ _) Nat.one_ne_zero)
      rfl rfl (prints_of_ready hready)
  | invalid hvalid =>
    have hready := ready_of_validate hvalid
    exact agree_of_ready hreport hready
      (iff_of_false (Validation.ne_nil_of_validate hvalid) (Nat.succ_ne_zero 1))
      rfl rfl (prints_of_ready hready)

/-! ## Both commands -/

theorem agree_validate : Agree (runValidate tree path "text".toList)
    (runValidate tree path "json".toList) := by
  rw [runValidate, runValidate]
  cases hg : (grammarAt tree path).2 with
  | error r =>
    have hnull : Json.Report.null.document.KeysOnce := Json.Document.keysOnce_scalar .null
    exact agree_rejection (faithful_validateReport hnull) (rejects_of_grammarAt hg)
  | ok g =>
    have hready : Ready [] := ⟨Diagnostic.sort_of_pairwise List.Pairwise.nil, nofun⟩
    exact agree_of_ready (faithful_validateReport (keysOnce_summaryReport g)) hready
      (iff_of_true rfl rfl) rfl rfl prints_nil

theorem agree_lintOutcome (hready : Ready ds) :
    Agree (lintOutcome false ds) (lintOutcome true ds) := by
  cases ds with
  | nil => exact agree_of_ready faithful_lintReport hready (iff_of_true rfl rfl) rfl rfl prints_nil
  | cons d ds =>
    exact agree_of_ready faithful_lintReport hready
      (iff_of_false (List.cons_ne_nil d ds) (Nat.succ_ne_zero 1)) rfl rfl
      (prints_of_ready hready)

/-- A file of aliases that cannot be used leaves no report. -/
theorem out_of_modifiersOf {file : Option Text} {o : Outcome}
    (h : modifiersOf tree file = .error o) : o.out = .text [] := by
  rw [modifiersOf.eq_def] at h
  split at h
  · cases h
  · cases h
  · next path _ =>
    cases hr : AliasFile.registry tree (Path.ofText path) with
    | ok r =>
      rw [hr] at h
      cases h
    | error f =>
      rw [hr] at h
      cases h
      rw [aliasOutcome.eq_def]
      split <;> rfl

theorem agree_lint {origin : Text} {modifierFile : Option Text} :
    Agree (runLint tree path origin modifierFile "text".toList)
      (runLint tree path origin modifierFile "json".toList) := by
  rw [runLint, runLint]
  cases hg : (grammarAt tree path).2 with
  | error r => exact agree_rejection faithful_lintReport (rejects_of_grammarAt hg)
  | ok g =>
    cases hm : modifiersOf tree modifierFile with
    | error o => exact Agree.refl_of_text (out_of_modifiersOf hm)
    | ok r => exact agree_lintOutcome (ready_lint g origin (some r) (some path))

theorem reports_rejection (r : Rejection) (report : List Diagnostic → Json.Report) :
    Reports (r.reported report) := by
  cases r with
  | crash f => exact .inr ⟨.loading f, rfl⟩
  | _ => exact .inl ⟨_, rfl⟩

/-- **The two formats of a command show the same.**  `lint` writes no report
in either format when it has a grammar and the file of aliases cannot be
used. -/
theorem formats_agree (tree : FileTree) (path origin : Text) (modifierFile : Option Text) :
    let validate := runValidate tree path
    let lint := runLint tree path origin modifierFile
    Agree (validate "text".toList) (validate "json".toList) ∧
      Agree (lint "text".toList) (lint "json".toList) ∧
      Reports (validate "json".toList) ∧
      match (grammarAt tree path).2, modifiersOf tree modifierFile with
      | .ok _, .error o => lint "text".toList = o ∧ lint "json".toList = o ∧ o.out = .text []
      | _, _ => Reports (lint "json".toList) := by
  refine ⟨agree_validate, agree_lint, ?_, ?_⟩
  · rw [runValidate]
    cases (grammarAt tree path).2 with
    | error r => exact reports_rejection r (validateReport · .null)
    | ok g => exact .inl ⟨_, rfl⟩
  · rw [runLint, runLint]
    cases (grammarAt tree path).2 with
    | error r => exact reports_rejection r lintReport
    | ok g =>
      cases hm : modifiersOf tree modifierFile with
      | error o => exact ⟨rfl, rfl, out_of_modifiersOf hm⟩
      | ok r => exact .inl ⟨_, rfl⟩

end TextGrammar.Cli
