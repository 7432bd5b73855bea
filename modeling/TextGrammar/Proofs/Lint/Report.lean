/-
# `TextGrammar.Proofs.Lint.Report` — what a report contains

A report is sorted, which does not matter for what is in it.  The lemmas say
of each kind of finding when the report has it: for symbols without
candidates and for events of a rule that this is enough, and for symbols
called unreachable that nothing else is called so.
-/
import TextGrammar.Grammar.Lint
import TextGrammar.Proofs.Rule.Walk

namespace TextGrammar.Lint

variable {g : Grammar} {origin : Text} {modifiers : Option Registry} {file : Option Text}

theorem mem_lint_iff {d : Diagnostic} :
    d ∈ lint g origin modifiers file ↔ d ∈ found g origin modifiers file := by
  rw [lint, Diagnostic.sort]
  exact (List.mergeSort_perm _ _).mem_iff

theorem code_of_mem_lint {d : Diagnostic} (h : d ∈ lint g origin modifiers file) :
    ∃ f : Finding, d.code = f.code := by
  rw [mem_lint_iff, found, List.mem_append, List.mem_append] at h
  rcases h with (h | h) | h
  · obtain ⟨symbol, -, rfl⟩ := List.mem_map.mp h
    exact ⟨.emptySymbol symbol, rfl⟩
  · obtain ⟨site, -, h⟩ := List.mem_flatMap.mp h
    obtain ⟨f, -, rfl⟩ := List.mem_map.mp h
    exact ⟨f, rfl⟩
  · obtain ⟨symbol, -, rfl⟩ := List.mem_map.mp h
    exact ⟨.unreachable symbol origin, rfl⟩

/-! ## Findings at events -/

theorem diagnostic_mem_lint {site : Site} {e : Event} {f : Finding}
    (hsite : site ∈ sites g origin) (he : e ∈ Rule.walk site.rule)
    (hf : f ∈ eventFindings (defined g origin) modifiers e) :
    site.diagnostic file f ∈ lint g origin modifiers file := by
  rw [mem_lint_iff, found, List.mem_append, List.mem_append]
  refine .inl (.inr (List.mem_flatMap.mpr ⟨site, hsite, List.mem_map.mpr ⟨f, ?_, rfl⟩⟩))
  exact List.mem_flatMap.mpr ⟨e, he, hf⟩

theorem unknownSymbol_mem_findings {known names : List Text} {key : Text} (h : key ∉ known) :
    .unknownSymbol (Token.reference key names) ∈
      eventFindings known modifiers (.token (.rule key names)) := by
  have hknown : ¬ known.contains key = true := fun hk => h (List.contains_iff_mem.mp hk)
  simp only [eventFindings, if_neg hknown]
  exact List.mem_append_left _ List.mem_cons_self

theorem unknownModifier_mem_findings {known names : List Text} {key name : Text} {r : Registry}
    (hn : name ∈ names) (hr : r.contains name = false) :
    .unknownModifier name (Token.reference key names) ∈
      eventFindings known (some r) (.token (.rule key names)) := by
  simp only [eventFindings]
  refine List.mem_append_right _ (List.mem_map.mpr ⟨name, ?_, rfl⟩)
  exact List.mem_filter.mpr ⟨hn, by rw [hr]; rfl⟩

theorem unreachable_not_mem_findings {known : List Text} {e : Event} {symbol origin : Text} :
    .unreachable symbol origin ∉ eventFindings known modifiers e := by
  intro h
  cases e with
  | drop kind span =>
    cases kind with
    | rule => exact absurd h List.not_mem_nil
    | action => cases List.mem_singleton.mp h
  | token t =>
    cases t with
    | text v => exact absurd h List.not_mem_nil
    | action key value => exact absurd h List.not_mem_nil
    | rule key names =>
      rcases List.mem_append.mp h with h | h
      · split at h
        · exact absurd h List.not_mem_nil
        · cases List.mem_singleton.mp h
      · obtain ⟨n, -, hn⟩ := List.mem_map.mp h
        cases hn

/-! ## Findings about symbols -/

theorem emptySymbol_mem_lint {key : Text} (h : (key, []) ∈ g) :
    symbolDiagnostic file key (.emptySymbol key) ∈ lint g origin modifiers file := by
  rw [mem_lint_iff, found, List.mem_append, List.mem_append]
  refine .inl (.inl (List.mem_map.mpr ⟨key, ?_, rfl⟩))
  exact List.mem_map.mpr ⟨(key, []), List.mem_filter.mpr ⟨h, rfl⟩, rfl⟩

theorem mem_unreachableSymbols_iff {k : Text} :
    k ∈ unreachableSymbols g origin ↔ k ∈ g.keys ∧ k ∉ Reachability.reachable g origin := by
  rw [unreachableSymbols, Text.sort, (List.mergeSort_perm _ _).mem_iff, List.mem_filter]
  refine and_congr_right fun _ => ?_
  rw [Bool.not_eq_true', ← Bool.not_eq_true, List.contains_iff_mem]

theorem unreachable_of_code {f : Finding} (h : f.code = "L_UNREACHABLE_SYMBOL".toList) :
    ∃ symbol origin, f = .unreachable symbol origin := by
  cases f with
  | unreachable symbol origin => exact ⟨symbol, origin, rfl⟩
  | emptySymbol symbol => exact absurd (String.toList_inj.mp h) (by decide)
  | unknownSymbol reference => exact absurd (String.toList_inj.mp h) (by decide)
  | unknownModifier name reference => exact absurd (String.toList_inj.mp h) (by decide)
  | droppedAction span => exact absurd (String.toList_inj.mp h) (by decide)

/-- The report on a grammar calls a symbol unreachable. -/
def CallsUnreachable (g : Grammar) (origin : Text) (modifiers : Option Registry)
    (file : Option Text) (k : Text) : Prop :=
  ∃ d ∈ lint g origin modifiers file, d.code = "L_UNREACHABLE_SYMBOL".toList ∧ d.symbol = some k

/-- It does so of the symbols that the search does not find, and no others. -/
theorem callsUnreachable_iff {k : Text} :
    CallsUnreachable g origin modifiers file k ↔
      k ∈ g.keys ∧ k ∉ Reachability.reachable g origin := by
  rw [← mem_unreachableSymbols_iff]
  constructor
  · rintro ⟨d, hd, hcode, hsymbol⟩
    rw [mem_lint_iff, found, List.mem_append, List.mem_append] at hd
    rcases hd with (hd | hd) | hd
    · obtain ⟨s, -, rfl⟩ := List.mem_map.mp hd
      obtain ⟨symbol, o, hf⟩ := unreachable_of_code (f := .emptySymbol s) hcode
      cases hf
    · obtain ⟨site, -, hd⟩ := List.mem_flatMap.mp hd
      obtain ⟨f, hf, rfl⟩ := List.mem_map.mp hd
      obtain ⟨e, -, hf⟩ := List.mem_flatMap.mp hf
      obtain ⟨symbol, o, rfl⟩ := unreachable_of_code hcode
      exact absurd hf unreachable_not_mem_findings
    · obtain ⟨s, hs, rfl⟩ := List.mem_map.mp hd
      exact Option.some.inj hsymbol ▸ hs
  · intro hk
    refine ⟨symbolDiagnostic file k (.unreachable k origin), ?_, rfl, rfl⟩
    rw [mem_lint_iff, found, List.mem_append]
    exact .inr (List.mem_map.mpr ⟨k, hk, rfl⟩)

/-! ## Symbols that count as defined -/

/-- A symbol that counts as defined although the grammar does not have it is
bound by an action of the origin or of a candidate. -/
theorem action_of_defined {key : Text} (hk : key ∈ defined g origin) (hg : key ∉ g.keys) :
    ∃ site ∈ sites g origin, ∃ value, .action key value ∈ Rule.tokens site.rule := by
  rw [defined, List.mem_append] at hk
  rcases hk with hk | hk
  · exact absurd hk hg
  · obtain ⟨site, hsite, hb⟩ := List.mem_flatMap.mp hk
    obtain ⟨tok, htok, hkey⟩ := List.mem_filterMap.mp hb
    cases tok with
    | text v => cases hkey
    | rule k ns => cases hkey
    | action k value =>
      cases hkey
      rw [Rule.mem_walkTokens_iff] at htok
      exact ⟨site, hsite, value,
        Rule.mem_tokens_iff.mpr (Rule.action_mem_events_of_mem_walk htok)⟩

end TextGrammar.Lint
