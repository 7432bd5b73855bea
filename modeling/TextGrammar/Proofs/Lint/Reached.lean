/-
# `TextGrammar.Proofs.Lint.Reached` — what is reached, and what is reported

The search takes symbols from a queue and puts others at its end.  Where a
symbol comes to stand there depends on the order in which the references of a
rule are listed; what is found in the end does not.  It is what a chain of
references leads to (`Reaches`), whether there are circles in the grammar or
references to symbols that it does not have:

    mem_explore_iff      the search finds what chains of references lead to
    reported_iff_reaches a symbol that no chain leads to is reported once
                         and no other symbol is

One half is an invariant of everything that is seen or waits: a chain leads to
it, if the grammar has it.  The other half follows the chain: its first symbol
is found from the origin, and each of the others from the one before.  That the
search ends at all is its definition: with every symbol that is seen for the
first time there are fewer left to be seen.
-/
import Mathlib.Data.List.Nodup
import TextGrammar.Proofs.Assoc
import TextGrammar.Proofs.Grammar.Reachability
import TextGrammar.Proofs.Lint.Report

namespace TextGrammar.Reachability

/-! ## Chains of references -/

/-- A rule refers to a symbol, directly or in the value of an action. -/
inductive Refers (rule k : Text) : Prop
  | direct {names : List Text} : .rule k names ∈ Rule.tokens rule → Refers rule k
  | bound {key value : Text} {names : List Text} : .action key value ∈ Rule.tokens rule →
      .rule k names ∈ Rule.tokens value → Refers rule k

/-- A chain of symbols of the grammar leads from the origin to a symbol: the
origin refers to the first one, and a candidate of each to the next one. -/
inductive Reaches (g : Grammar) (origin : Text) : Text → Prop
  | first {k : Text} : Refers origin k → k ∈ g.keys → Reaches g origin k
  | next {k k' rule : Text} {candidates : List Text} : Reaches g origin k →
      g.get? k = some candidates → rule ∈ candidates → Refers rule k' → k' ∈ g.keys →
      Reaches g origin k'

variable {g : Grammar} {origin k : Text} {refs : Text → List Text}

/-- What the walk through a rule lists is what it refers to.  A value has no
actions, so that the walk goes no deeper than its references. -/
theorem mem_references_iff {rule : Text} : k ∈ references rule ↔ Refers rule k := by
  have hrefs : ∀ {rule k}, k ∈ references rule ↔
      ∃ names, .token (.rule k names) ∈ Rule.walk rule := by
    intro rule k
    rw [references, List.mem_filterMap]
    constructor
    · rintro ⟨t, ht, hk⟩
      cases t with
      | rule key names =>
        cases hk
        exact ⟨names, Rule.mem_walkTokens_iff.mp ht⟩
      | _ => cases hk
    · rintro ⟨names, h⟩
      exact ⟨_, Rule.mem_walkTokens_iff.mpr h, rfl⟩
  rw [hrefs]
  constructor
  · rintro ⟨names, h⟩
    rcases Rule.mem_walk_iff.mp h with h | ⟨key, value, haction, h⟩
    · exact .direct (Rule.mem_tokens_iff.mpr h)
    · rcases Rule.mem_walk_iff.mp h with h | ⟨key', value', hdeeper, -⟩
      · exact .bound (Rule.mem_tokens_iff.mpr haction) (Rule.mem_tokens_iff.mpr h)
      · exact absurd hdeeper (Rule.action_not_mem_events_value haction)
  · rintro (h | ⟨haction, h⟩)
    · exact ⟨_, Rule.mem_walk_iff.mpr (.inl (Rule.mem_tokens_iff.mp h))⟩
    · rw [Rule.mem_tokens_iff] at haction h
      exact ⟨_, Rule.mem_walk_iff.mpr (.inr ⟨_, _, haction, Rule.mem_walk_iff.mpr (.inl h)⟩)⟩

/-! ## What the search finds -/

/-- Only symbols of the grammar are found, and each of them once. -/
theorem nodup_explore {seen queue : List Text} (hnodup : seen.Nodup) (hkeys : seen ⊆ g.keys) :
    (explore refs g seen queue).Nodup ∧ explore refs g seen queue ⊆ g.keys := by
  fun_induction explore refs g seen queue with
  | case1 => exact ⟨hnodup, hkeys⟩
  | case2 seen k queue _ ih => exact ih hnodup hkeys
  | case3 seen k queue _ _ ih => exact ih hnodup hkeys
  | case4 seen k queue hs candidates hg fresh ih =>
    refine ih (List.nodup_cons.mpr ⟨?_, hnodup⟩) (List.cons_subset.mpr ⟨?_, hkeys⟩)
    · exact fun hmem => hs (List.contains_iff_mem.mpr hmem)
    · exact mem_keys_of_get? hg

/-- **The search finds what chains of references lead to**, in whatever order
the references of a rule are listed, and however often. -/
theorem mem_explore_iff (hrefs : ∀ rule k, k ∈ refs rule ↔ Refers rule k) :
    k ∈ explore refs g [] (refs origin) ↔ Reaches g origin k := by
  constructor
  · intro h
    have hkey : k ∈ g.keys := (nodup_explore List.nodup_nil (List.nil_subset _)).2 h
    have hinv : ∀ k ∈ explore refs g [] (refs origin), k ∈ g.keys → Reaches g origin k := by
      refine forall_mem_explore ?_ (fun k hk => absurd hk List.not_mem_nil) ?_
      · intro k hk candidates hg r hr hrkey
        obtain ⟨rule, hrule, hr⟩ := List.mem_flatMap.mp hr
        exact .next (hk (mem_keys_of_get? hg)) hg hrule ((hrefs rule r).mp hr) hrkey
      · intro k hk hkey
        exact .first ((hrefs origin k).mp hk) hkey
    exact hinv k h hkey
  · intro h
    have hclosed : Closed refs g [] (refs origin) := fun _ hk => absurd hk List.not_mem_nil
    induction h with
    | @first k hk hkey =>
      have hstart : Accounted g [] (refs origin) k := .inr (.inl ((hrefs origin k).mpr hk))
      refine (accounted_explore hstart).mem_or_unbound.resolve_right ?_
      exact fun hnone => Assoc.get?_eq_none_iff.mp hnone hkey
    | @next k k' rule candidates _ hg hrule hr hkey ih =>
      have hmem : k' ∈ candidates.flatMap refs :=
        List.mem_flatMap.mpr ⟨rule, hrule, (hrefs rule k').mpr hr⟩
      have hfound := closed_explore hclosed k ih candidates hg k' hmem
      refine hfound.mem_or_unbound.resolve_right ?_
      exact fun hnone => Assoc.get?_eq_none_iff.mp hnone hkey

end TextGrammar.Reachability

namespace TextGrammar.Lint

open Reachability

variable {g : Grammar} {origin : Text} {modifiers : Option Registry} {file : Option Text}

/-! ## What is reported -/

/-- Of all that is found, only what is said of unreachable symbols has their
code. -/
theorem filter_unreachable_found :
    (found g origin modifiers file).filter (·.code = "L_UNREACHABLE_SYMBOL".toList) =
      (unreachableSymbols g origin).map fun k => symbolDiagnostic file k (.unreachable k origin) := by
  rw [found, List.filter_append, List.filter_append]
  have hempty : ((emptySymbols g).map fun s => symbolDiagnostic file s (.emptySymbol s)).filter
      (·.code = "L_UNREACHABLE_SYMBOL".toList) = [] := by
    rw [List.filter_eq_nil_iff]
    intro d hd hcode
    obtain ⟨s, -, rfl⟩ := List.mem_map.mp hd
    obtain ⟨symbol, o, hf⟩ := unreachable_of_code (f := .emptySymbol s) (of_decide_eq_true hcode)
    cases hf
  have hsites : ((sites g origin).flatMap fun site =>
      (siteFindings (defined g origin) modifiers site).map (site.diagnostic file)).filter
        (·.code = "L_UNREACHABLE_SYMBOL".toList) = [] := by
    rw [List.filter_eq_nil_iff]
    intro d hd hcode
    obtain ⟨site, -, hd⟩ := List.mem_flatMap.mp hd
    obtain ⟨f, hf, rfl⟩ := List.mem_map.mp hd
    obtain ⟨e, -, hf⟩ := List.mem_flatMap.mp hf
    obtain ⟨symbol, o, rfl⟩ := unreachable_of_code (of_decide_eq_true hcode)
    exact unreachable_not_mem_findings hf
  rw [hempty, hsites, List.nil_append, List.nil_append, List.filter_eq_self]
  intro d hd
  obtain ⟨k, -, rfl⟩ := List.mem_map.mp hd
  exact decide_eq_true rfl

theorem nodup_unreachableSymbols (hg : g.keys.Nodup) : (unreachableSymbols g origin).Nodup :=
  (List.mergeSort_perm _ _).nodup_iff.mpr (hg.filter _)

/-- **The search is exact, and so is the report on it.** -/
theorem reported_iff_reaches (hg : g.keys.Nodup) (origin : Text) (modifiers : Option Registry)
    (file : Option Text) :
    (∀ refs : Text → List Text, (∀ rule k, k ∈ refs rule ↔ Refers rule k) →
      (explore refs g [] (refs origin)).Nodup ∧
        ∀ k, k ∈ explore refs g [] (refs origin) ↔ Reaches g origin k) ∧
    ∃ ks : List Text, ks.Nodup ∧ (∀ k, k ∈ ks ↔ k ∈ g.keys ∧ ¬ Reaches g origin k) ∧
      ((lint g origin modifiers file).filter (·.code = "L_UNREACHABLE_SYMBOL".toList)).Perm
        (ks.map fun k => ⟨.validation, "L_UNREACHABLE_SYMBOL".toList,
          "symbol '".toList ++ k ++ "' is not reachable from ".toList ++ origin,
          file, some k, none⟩) := by
  constructor
  · intro refs hrefs
    exact ⟨(nodup_explore List.nodup_nil (List.nil_subset _)).1, fun k => mem_explore_iff hrefs⟩
  · refine ⟨unreachableSymbols g origin, nodup_unreachableSymbols hg, ?_, ?_⟩
    · intro k
      rw [mem_unreachableSymbols_iff, reachable, mem_explore_iff fun _ _ => mem_references_iff]
    · have hperm := (List.mergeSort_perm (found g origin modifiers file)
        fun a b => a.key.le b.key).filter (·.code = "L_UNREACHABLE_SYMBOL".toList)
      rw [filter_unreachable_found] at hperm
      exact hperm

/-- A grammar with a circle, an action and a reference to a symbol that it does
not have; nothing leads to one of its symbols. -/
def tangled : Grammar := [
  ("a".toList, ["#b##lost#".toList]),
  ("b".toList, ["[x:#c#]#a#".toList]),
  ("c".toList, []),
  ("d".toList, ["#a#".toList])]

theorem reported_tangled :
    tangled.keys.Nodup ∧
      (∀ k, k ∈ explore references tangled [] (references "#a#".toList) ↔
        Reaches tangled "#a#".toList k) ∧
      ∃ ks : List Text, ks.Nodup ∧
        (∀ k, k ∈ ks ↔ k ∈ tangled.keys ∧ ¬ Reaches tangled "#a#".toList k) ∧
        ((lint tangled "#a#".toList none none).filter
          (·.code = "L_UNREACHABLE_SYMBOL".toList)).Perm
          (ks.map fun k => ⟨.validation, "L_UNREACHABLE_SYMBOL".toList,
            "symbol '".toList ++ k ++ "' is not reachable from ".toList ++ "#a#".toList,
            none, some k, none⟩) := by
  have hkeys : tangled.keys.Nodup := by decide
  obtain ⟨hsearch, hreport⟩ := reported_iff_reaches hkeys "#a#".toList none none
  exact ⟨hkeys, (hsearch references fun _ _ => mem_references_iff).2, hreport⟩

end TextGrammar.Lint
