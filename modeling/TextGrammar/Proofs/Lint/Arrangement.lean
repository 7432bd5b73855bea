/-
# `TextGrammar.Proofs.Lint.Arrangement` — the order in which symbols are listed

A mapping lists its symbols in some order.  No verdict, no report and no
expansion depends on it:

    arrangement_irrelevant    the same verdict, the same report line by line,
                              the same expansions

For a report this takes two facts.  The sets that the search works with, the
symbols that are defined and those that are reached, are the same sets.  And
what is found at two places of a mapping never has the same key: the place of
a candidate is known from its symbol and its number, and the origin, which has
neither, is told from the symbol with the empty name by the missing number
(`eq_of_key_eq`).  So only what is found at one place can tie, and that is
found in the order of its text.
-/
import Mathlib.Data.List.Nodup
import TextGrammar.Proofs.Expansion.Agreement
import TextGrammar.Proofs.Grammar.Validation
import TextGrammar.Proofs.Lint.Report

namespace TextGrammar.Lint

open Diagnostic (SameByKey)

variable {g g' : Grammar} {origin : Text} {modifiers : Option Registry} {file : Option Text}

/-! ## Places -/

theorem mem_candidateSites_iff {symbol : Text} {site : Site} {i : Nat} {candidates : List Text} :
    site ∈ candidateSites symbol i candidates ↔
      ∃ j rule, candidates[j]? = some rule ∧ site = ⟨some symbol, some (i + j), rule⟩ := by
  induction candidates generalizing i with
  | nil => simp [candidateSites]
  | cons rule rest ih =>
    rw [candidateSites, List.mem_cons, ih]
    constructor
    · rintro (rfl | ⟨j, r, hr, rfl⟩)
      · exact ⟨0, rule, rfl, rfl⟩
      · exact ⟨j + 1, r, hr, by rw [Nat.add_right_comm, Nat.add_assoc]⟩
    · rintro ⟨j, r, hr, rfl⟩
      cases j with
      | zero =>
        cases hr
        exact .inl rfl
      | succ j => exact .inr ⟨j, r, hr, by rw [Nat.add_right_comm, Nat.add_assoc]⟩

theorem mem_sites_iff {site : Site} :
    site ∈ sites g origin ↔ site = ⟨none, none, origin⟩ ∨
      ∃ symbol candidates i rule, (symbol, candidates) ∈ g ∧ candidates[i]? = some rule ∧
        site = ⟨some symbol, some i, rule⟩ := by
  rw [sites, List.mem_cons, List.mem_flatMap]
  refine or_congr_right ?_
  constructor
  · rintro ⟨⟨symbol, candidates⟩, he, hsite⟩
    obtain ⟨i, rule, hrule, rfl⟩ := mem_candidateSites_iff.mp hsite
    exact ⟨symbol, candidates, i, rule, he, hrule, by rw [Nat.zero_add]⟩
  · rintro ⟨symbol, candidates, i, rule, he, hrule, rfl⟩
    exact ⟨(symbol, candidates), he,
      mem_candidateSites_iff.mpr ⟨i, rule, hrule, by rw [Nat.zero_add]⟩⟩

/-- What is found at two places has different keys. -/
theorem eq_of_key_eq (hn : g.keys.Nodup) {site site' : Site} {f f' : Finding}
    (h : site ∈ sites g origin) (h' : site' ∈ sites g origin)
    (hkey : (site.diagnostic file f).key = (site'.diagnostic file f').key) : site = site' := by
  have hsymbol : site.symbol.getD [] = site'.symbol.getD [] := congrArg Diagnostic.Key.symbol hkey
  have hindex : (site.index.map Int.ofNat).getD (-1) = (site'.index.map Int.ofNat).getD (-1) :=
    congrArg Diagnostic.Key.index hkey
  rcases mem_sites_iff.mp h with rfl | ⟨symbol, candidates, i, rule, he, hrule, rfl⟩
  · rcases mem_sites_iff.mp h' with rfl | ⟨symbol', candidates', i', rule', -, -, rfl⟩
    · rfl
    · cases hindex
  · rcases mem_sites_iff.mp h' with rfl | ⟨symbol', candidates', i', rule', he', hrule', rfl⟩
    · cases hindex
    · obtain rfl : symbol = symbol' := hsymbol
      obtain rfl : i = i' := Int.ofNat.inj hindex
      have hentry : (symbol, candidates) = (symbol, candidates') :=
        List.inj_on_of_nodup_map hn he he' rfl
      cases hentry
      rw [hrule] at hrule'
      cases hrule'
      rfl

/-! ## Sets -/

theorem sites_perm (h : g.Perm g') : (sites g origin).Perm (sites g' origin) :=
  (h.flatMap_right _).cons _

theorem defined_perm (h : g.Perm g') : (defined g origin).Perm (defined g' origin) :=
  (h.map _).append ((sites_perm h).flatMap_right _)

theorem emptySymbols_perm (h : g.Perm g') : (emptySymbols g).Perm (emptySymbols g') :=
  (h.filter _).map _

/-- What is found at a place depends on which symbols count as defined, not on
how they are listed. -/
theorem siteFindings_congr {known known' : List Text}
    (h : ∀ k, known.contains k = known'.contains k) (modifiers : Option Registry) (site : Site) :
    siteFindings known modifiers site = siteFindings known' modifiers site := by
  have hevent : eventFindings known modifiers = eventFindings known' modifiers := by
    funext e
    cases e with
    | drop kind span => cases kind <;> rfl
    | token t =>
      cases t with
      | rule key names => simp only [eventFindings, h]
      | _ => rfl
  rw [siteFindings, siteFindings, hevent]

theorem unreachableSymbols_perm (h : g.Perm g') (hn : g.keys.Nodup) :
    (unreachableSymbols g origin).Perm (unreachableSymbols g' origin) := by
  have hget := Assoc.get?_of_perm h hn
  have hmem : ∀ k ∈ g.keys,
      (k ∈ Reachability.reachable g origin ↔ k ∈ Reachability.reachable g' origin) := by
    intro k hk
    have hbound : g.get? k ≠ none := fun hnone => Assoc.get?_eq_none_iff.mp hnone hk
    constructor
    · intro hr
      refine (Reachability.mem_reachable_of_get?_eq hget hr).resolve_right ?_
      rwa [hget]
    · intro hr
      exact (Reachability.mem_reachable_of_get?_eq (fun k => (hget k).symm) hr).resolve_right
        hbound
  have hfilter : (g.keys.filter fun k => !(Reachability.reachable g origin).contains k) =
      g.keys.filter fun k => !(Reachability.reachable g' origin).contains k := by
    refine List.filter_congr fun k hk => ?_
    rw [Bool.eq_iff_iff, Bool.not_eq_true', Bool.not_eq_true', ← Bool.not_eq_true,
      ← Bool.not_eq_true, List.contains_iff_mem, List.contains_iff_mem, hmem k hk]
  have hkeys : g.keys.Perm g'.keys := h.map _
  rw [unreachableSymbols, unreachableSymbols, hfilter]
  exact ((List.mergeSort_perm _ _).trans (hkeys.filter _)).trans (List.mergeSort_perm _ _).symm

/-! ## Reports -/

/-- Findings about symbols as a whole, one for each symbol. -/
theorem sameByKey_symbols {symbols symbols' : List Text} (h : symbols.Perm symbols')
    (f : Text → Finding) :
    SameByKey (symbols.map fun s => symbolDiagnostic file s (f s))
      (symbols'.map fun s => symbolDiagnostic file s (f s)) := by
  rw [List.map_eq_flatMap, List.map_eq_flatMap]
  refine Diagnostic.sameByKey_flatMap h ?_
  intro s _ s' _ d hd d' hd' hkey
  rw [List.mem_singleton.mp hd, List.mem_singleton.mp hd'] at hkey
  exact congrArg Diagnostic.Key.symbol hkey

theorem lint_of_perm (h : g.Perm g') (hn : g.keys.Nodup) (origin : Text)
    (modifiers : Option Registry) (file : Option Text) :
    lint g' origin modifiers file = lint g origin modifiers file := by
  have hknown : ∀ k, (defined g' origin).contains k = (defined g origin).contains k :=
    fun k => (defined_perm h).symm.contains_eq
  rw [lint, lint, Diagnostic.sort_eq_sort_iff, found, found]
  refine SameByKey.append (SameByKey.append ?_ ?_) ?_
  · exact sameByKey_symbols (emptySymbols_perm h).symm _
  · simp only [siteFindings_congr hknown]
    refine Diagnostic.sameByKey_flatMap (sites_perm h).symm ?_
    intro site hsite site' hsite' d hd d' hd' hkey
    obtain ⟨f, -, rfl⟩ := List.mem_map.mp hd
    obtain ⟨f', -, rfl⟩ := List.mem_map.mp hd'
    exact eq_of_key_eq hn ((sites_perm h).mem_iff.mpr hsite) ((sites_perm h).mem_iff.mpr hsite')
      hkey
  · exact sameByKey_symbols (unreachableSymbols_perm h hn).symm _

/-! ## Everything together -/

open Expansion Validation

/-- **The order of the symbols is not observable.** -/
theorem arrangement_irrelevant {entries entries' : Assoc Text Value}
    (hentries : entries.Perm entries') (hkeys : entries.keys.Nodup) {g g' : Grammar}
    (hg : g.Perm g') (hsymbols : g.keys.Nodup) :
    (∀ file, SameVerdict (validate (named entries) file) (validate (named entries') file)) ∧
      (∀ origin modifiers file, lint g' origin modifiers file = lint g origin modifiers file) ∧
      ∀ {σ : Type} (c : Setting σ) (origin : Text) (source : σ),
        let r := expand c g origin source
        let r' := expand c g' origin source
        r'.text = r.text ∧ r'.store.draws = r.store.draws ∧ r'.store.source = r.store.source ∧
          r'.store.notices = r.store.notices := by
  refine ⟨validate_of_perm hentries hkeys, lint_of_perm hg hsymbols, ?_⟩
  intro σ c origin source r r'
  obtain ⟨m, hm⟩ := expand_of_get?_eq (Assoc.get?_of_perm hg hsymbols) c origin source
  have hr' : r' = r.withSymbols m := hm
  rw [hr']
  exact ⟨rfl, rfl, rfl, rfl⟩

/-- A list with two bad items, a blank key, and a value that is no list. -/
def faulty : Assoc Text Value := [
  ("b".toList, .list [.int 1, .str "x".toList, .null]), (" ".toList, .null), ("a".toList, .null)]

/-- The one candidate of `b` has two unknown references, which tie, and `a` is
neither reached nor has candidates. -/
def tied : Grammar := [("b".toList, ["#x.q##y#".toList]), ("a".toList, [])]

theorem arrangement_irrelevant_reversed :
    faulty.Perm faulty.reverse ∧ faulty.keys.Nodup ∧ tied.Perm tied.reverse ∧ tied.keys.Nodup ∧
      (∀ file, SameVerdict (validate (named faulty) file)
        (validate (named faulty.reverse) file)) ∧
      (∀ origin modifiers file,
        lint tied.reverse origin modifiers file = lint tied origin modifiers file) ∧
      ∀ {σ : Type} (c : Setting σ) (origin : Text) (source : σ),
        let r := expand c tied origin source
        let r' := expand c tied.reverse origin source
        r'.text = r.text ∧ r'.store.draws = r.store.draws ∧ r'.store.source = r.store.source ∧
          r'.store.notices = r.store.notices := by
  have hentries : faulty.Perm faulty.reverse := (List.reverse_perm faulty).symm
  have hg : tied.Perm tied.reverse := (List.reverse_perm tied).symm
  have hkeys : faulty.keys.Nodup := by decide
  have hsymbols : tied.keys.Nodup := by decide
  exact ⟨hentries, hkeys, hg, hsymbols, arrangement_irrelevant hentries hkeys hg hsymbols⟩

end TextGrammar.Lint
