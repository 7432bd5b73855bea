/-
# `TextGrammar.Proofs.Grammar.Validation` — what is valid, and what is reported

A mapping is valid when every entry is: then its grammar has an entry for each
of its entries, in the same order (`keys_of_validate`).  Otherwise there is
something to report (`ne_nil_of_validate`).

What is found in an entry is filed under the key of that entry.  So the verdict
does not depend on the order of the entries, as long as no key is repeated:

    validate_of_perm    the same diagnostics in the same order, or grammars
                        with the same candidates for every symbol
-/
import Mathlib.Data.List.Nodup
import TextGrammar.Grammar.Validation
import TextGrammar.Proofs.Assoc
import TextGrammar.Proofs.Grammar.Diagnostic

namespace TextGrammar.Validation

/-! ## Valid entries -/

/-- A value gives candidates: as a single text, or as a list of texts. -/
inductive Gives : Value → List Text → Prop
  | single {t : Text} : Gives (.str t) [t]
  | list {ts : List Text} : Gives (.list (ts.map .str)) ts

theorem itemDefects_eq_nil {symbol : Text} {i : Nat} {items : List Value}
    (h : itemDefects symbol i items = []) : items = (items.filterMap Value.text?).map .str := by
  induction items generalizing i with
  | nil => rfl
  | cons v items ih =>
    cases v with
    | str t =>
      have hrest := ih (i := i + 1) h
      rw [List.filterMap_cons, Value.text?, List.map_cons, ← hrest]
    | _ => cases h

/-- An entry without defect has a name for a key and gives candidates. -/
theorem symbolOf_of_entryDefects {entry : Value × Value} (h : entryDefects entry = []) :
    ∃ symbol candidates, symbolOf entry = some (symbol, candidates) ∧
      entry.1 = .str symbol ∧ Gives entry.2 candidates := by
  obtain ⟨k, v⟩ := entry
  rw [entryDefects] at h
  cases hk : symbol? k with
  | none =>
    rw [hk] at h
    cases h
  | some symbol =>
    have hname : k = .str symbol := by
      cases k with
      | str t =>
        rw [symbol?] at hk
        split at hk
        · cases hk
        · cases hk
          rfl
      | _ => cases hk
    have hof : symbolOf (k, v) = some (symbol, candidatesOf v) := by
      rw [symbolOf, hk]
      rfl
    refine ⟨symbol, candidatesOf v, hof, hname, ?_⟩
    rw [hk] at h
    cases v with
    | str t => exact .single
    | list items =>
      have hitems := itemDefects_eq_nil h
      rw [candidatesOf]
      conv => lhs; rw [hitems]
      exact .list
    | _ => cases h

/-- A mapping is valid if there is nothing to report, and then its grammar is
read entry by entry. -/
theorem validate_eq_ok_iff {raw : List (Value × Value)} {file : Option Text} {g : Grammar} :
    validate raw file = .ok g ↔ defects raw = [] ∧ g = raw.filterMap symbolOf := by
  rw [validate]
  cases defects raw with
  | nil =>
    constructor
    · intro h
      cases h
      exact ⟨rfl, rfl⟩
    · rintro ⟨-, rfl⟩
      rfl
  | cons d ds =>
    constructor
    · intro h
      cases h
    · rintro ⟨h, -⟩
      cases h

theorem validate_eq_error_iff {raw : List (Value × Value)} {file : Option Text}
    {ds : List Diagnostic} :
    validate raw file = .error ds ↔
      defects raw ≠ [] ∧ ds = Diagnostic.sort ((defects raw).map (·.diagnostic file)) := by
  rw [validate]
  cases defects raw with
  | nil =>
    constructor
    · intro h
      cases h
    · rintro ⟨h, -⟩
      exact absurd rfl h
  | cons d ds =>
    constructor
    · intro h
      cases h
      exact ⟨List.cons_ne_nil d ds, rfl⟩
    · rintro ⟨-, rfl⟩
      rfl

/-- The symbols of a grammar are the keys of its mapping, in their order. -/
theorem keys_of_validate {raw : List (Value × Value)} {file : Option Text} {g : Grammar}
    (h : validate raw file = .ok g) : raw.map (·.1) = g.keys.map .str := by
  obtain ⟨hdefects, rfl⟩ := validate_eq_ok_iff.mp h
  clear h
  induction raw with
  | nil => rfl
  | cons entry raw ih =>
    rw [defects, List.flatMap_cons, List.append_eq_nil_iff] at hdefects
    obtain ⟨symbol, candidates, hof, hname, -⟩ := symbolOf_of_entryDefects hdefects.1
    rw [List.filterMap_cons_some hof, List.map_cons, ih hdefects.2, hname]
    rfl

/-- Each entry of a valid mapping gives its symbol the candidates. -/
theorem exists_of_validate {raw : List (Value × Value)} {file : Option Text} {g : Grammar}
    (h : validate raw file = .ok g) {entry : Value × Value} (he : entry ∈ raw) :
    ∃ symbol candidates, entry.1 = .str symbol ∧ Gives entry.2 candidates ∧
      (symbol, candidates) ∈ g := by
  obtain ⟨hdefects, rfl⟩ := validate_eq_ok_iff.mp h
  obtain ⟨symbol, candidates, hof, hname, hgives⟩ :=
    symbolOf_of_entryDefects (List.flatMap_eq_nil_iff.mp hdefects entry he)
  exact ⟨symbol, candidates, hname, hgives, List.mem_filterMap.mpr ⟨entry, he, hof⟩⟩

/-- What is refused is reported. -/
theorem ne_nil_of_validate {raw : List (Value × Value)} {file : Option Text}
    {ds : List Diagnostic} (h : validate raw file = .error ds) : ds ≠ [] := by
  obtain ⟨hne, rfl⟩ := validate_eq_error_iff.mp h
  intro hnil
  have hlength := congrArg List.length hnil
  rw [Diagnostic.sort, List.length_mergeSort, List.length_map] at hlength
  exact hne (List.eq_nil_of_length_eq_zero hlength)

/-! ## The order of the entries -/

/-- The entries of a mapping whose keys are texts. -/
def named (entries : Assoc Text Value) : List (Value × Value) :=
  entries.map fun e => (.str e.1, e.2)

/-- Two verdicts are the same: the same diagnostics one by one, or grammars
that have the same entries and give every symbol the same candidates. -/
def SameVerdict : Except (List Diagnostic) Grammar → Except (List Diagnostic) Grammar → Prop
  | .error ds, .error ds' => ds' = ds
  | .ok g, .ok g' => g'.Perm g ∧ ∀ k, g'.get? k = g.get? k
  | _, _ => False

/-- The entry of a grammar that a valid entry gives keeps its name, and no
other entry is dropped or added in between. -/
theorem keys_sublist (entries : Assoc Text Value) :
    (Assoc.keys ((named entries).filterMap symbolOf)).Sublist entries.keys := by
  induction entries with
  | nil => exact List.Sublist.slnil
  | cons e entries ih =>
    obtain ⟨k, v⟩ := e
    rw [named, List.map_cons, List.filterMap_cons, symbolOf, symbol?]
    split
    · exact ih.cons k
    · next symbol hsymbol =>
      split at hsymbol
      · cases hsymbol
      · cases hsymbol
        exact ih.cons_cons k

theorem symbol_of_mem_itemDefects {symbol : Text} {i : Nat} {items : List Value} {d : Defect}
    (h : d ∈ itemDefects symbol i items) : d.symbol = symbol := by
  induction items generalizing i with
  | nil => exact absurd h List.not_mem_nil
  | cons v items ih =>
    cases v with
    | str t => exact ih h
    | _ =>
      rcases List.mem_cons.mp h with rfl | h
      · rfl
      · exact ih h

/-- A defect belongs to the key of its entry. -/
theorem symbol_of_mem_entryDefects {k : Text} {v : Value} {d : Defect}
    (h : d ∈ entryDefects (.str k, v)) : d.symbol = k := by
  rw [entryDefects, symbol?] at h
  split at h
  · rw [List.mem_singleton.mp h]
    rfl
  · next symbol hsymbol =>
    split at hsymbol
    · cases hsymbol
    · cases hsymbol
      cases v with
      | str t => exact absurd h List.not_mem_nil
      | list items => exact symbol_of_mem_itemDefects h
      | _ =>
        rw [List.mem_singleton.mp h]
        rfl

/-- What is reported of the entries, entry by entry. -/
theorem map_defects_named (entries : Assoc Text Value) (file : Option Text) :
    (defects (named entries)).map (·.diagnostic file) =
      entries.flatMap fun e => (entryDefects (.str e.1, e.2)).map (·.diagnostic file) := by
  rw [defects, named, List.flatMap_map, List.map_flatMap]

/-- **The order of the entries does not matter for the verdict.** -/
theorem validate_of_perm {entries entries' : Assoc Text Value} (h : entries.Perm entries')
    (hn : entries.keys.Nodup) (file : Option Text) :
    SameVerdict (validate (named entries) file) (validate (named entries') file) := by
  have hraw : (named entries).Perm (named entries') := h.map _
  have hdefects : (defects (named entries)).Perm (defects (named entries')) :=
    hraw.flatMap_right entryDefects
  by_cases hnil : defects (named entries) = []
  · have hnil' : defects (named entries') = [] := List.nil_perm.mp (hnil ▸ hdefects)
    rw [validate_eq_ok_iff.mpr ⟨hnil, rfl⟩, validate_eq_ok_iff.mpr ⟨hnil', rfl⟩]
    have hg := hraw.filterMap symbolOf
    exact ⟨hg.symm, Assoc.get?_of_perm hg ((keys_sublist entries).nodup hn)⟩
  · have hnil' : defects (named entries') ≠ [] := by
      intro hnil'
      exact hnil (List.perm_nil.mp (hnil' ▸ hdefects))
    rw [validate_eq_error_iff.mpr ⟨hnil, rfl⟩, validate_eq_error_iff.mpr ⟨hnil', rfl⟩]
    show Diagnostic.sort _ = Diagnostic.sort _
    rw [Diagnostic.sort_eq_sort_iff, map_defects_named, map_defects_named]
    refine Diagnostic.sameByKey_flatMap h.symm ?_
    intro a ha b hb d hd d' hd' hkey
    obtain ⟨e, he, rfl⟩ := List.mem_map.mp hd
    obtain ⟨e', he', rfl⟩ := List.mem_map.mp hd'
    have hsymbol : e.symbol = e'.symbol := congrArg Diagnostic.Key.symbol hkey
    rw [symbol_of_mem_entryDefects he, symbol_of_mem_entryDefects he'] at hsymbol
    exact List.inj_on_of_nodup_map hn (h.mem_iff.mpr ha) (h.mem_iff.mpr hb) hsymbol

end TextGrammar.Validation
