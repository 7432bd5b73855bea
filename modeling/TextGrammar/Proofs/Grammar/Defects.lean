/-
# `TextGrammar.Proofs.Grammar.Defects` — each defect is reported, once

What has to be reported of an entry is said without the search for it
(`Reports`): a key that is no name, and then nothing else of this entry; a
value that is neither a text nor a list; each item of a list that is no text.
The report on a mapping lists just this, whatever else is wrong before or
behind it:

    validate_reports    one diagnostic for each defect of each entry, in order
                        a grammar if and only if there is none
                        its entries are those of the mapping, as lists
                        a grammar is valid as it stands

That no defect is reported twice is said by numbering the entries: the pairs of
a number and a diagnostic are all different, and the report is what stands in
the second places.
-/
import Mathlib.Data.List.Nodup
import Mathlib.Data.List.Forall2
import TextGrammar.Proofs.Grammar.Validation

namespace TextGrammar.Validation

/-! ## What has to be reported -/

/-- Nothing but white space. -/
def Blank (t : Text) : Prop := ∀ c ∈ t, Text.isBlank c = true

/-- An entry is reported by a diagnostic. -/
inductive Reports (file : Option Text) : Value × Value → Diagnostic → Prop
  | key {k v : Value} : (∀ t, k = .str t → Blank t) →
      Reports file (k, v) ⟨.validation, "E_INVALID_KEY".toList,
        "symbol names must be non-empty strings, got ".toList ++ k.written,
        file, some k.shown, none⟩
  | candidates {t : Text} {v : Value} : ¬ Blank t → (∀ s, v ≠ .str s) →
      (∀ items, v ≠ .list items) →
      Reports file (.str t, v) ⟨.validation, "E_INVALID_TYPE".toList,
        "candidates must be an array of strings, got ".toList ++ v.kindName, file, some t, none⟩
  | candidate {t : Text} {items : List Value} {i : Nat} {v : Value} : ¬ Blank t →
      items[i]? = some v → (∀ s, v ≠ .str s) →
      Reports file (.str t, .list items) ⟨.validation, "E_INVALID_TYPE".toList,
        "candidate must be a string, got ".toList ++ v.kindName, file, some t, some i⟩

/-- The diagnostics of a verdict.  A grammar comes with none. -/
def reportOf : Except (List Diagnostic) Grammar → List Diagnostic
  | .error ds => ds
  | .ok _ => []

/-- What becomes of an entry: the key is the symbol, and the value gives the
candidates. -/
def Becomes (e : Value × Value) (s : Text × List Text) : Prop := e.1 = .str s.1 ∧ Gives e.2 s.2

/-- A grammar as plain data. -/
def plain (g : Grammar) : List (Value × Value) := g.map fun s => (.str s.1, .list (s.2.map .str))

/-! ## Items -/

theorem blank_iff {t : Text} : Text.allBlank t = true ↔ Blank t := List.all_eq_true

theorem symbol?_eq_none_iff {k : Value} : symbol? k = none ↔ ∀ t, k = .str t → Blank t := by
  cases k with
  | str t => simp [symbol?, blank_iff]
  | _ => simp [symbol?]

theorem symbol?_eq_some_iff {k : Value} {t : Text} :
    symbol? k = some t ↔ k = .str t ∧ ¬ Blank t := by
  cases k with
  | str s =>
    rw [symbol?]
    split
    · next hs =>
      constructor
      · intro h
        cases h
      · rintro ⟨⟨⟩, ht⟩
        exact absurd (blank_iff.mp hs) ht
    · next hs =>
      rw [blank_iff] at hs
      constructor
      · rintro ⟨⟩
        exact ⟨rfl, hs⟩
      · rintro ⟨⟨⟩, -⟩
        rfl
  | _ => simp [symbol?]

/-- An item that is no text is a defect with its number. -/
theorem mem_itemDefects_iff {symbol : Text} {i : Nat} {items : List Value} {d : Defect} :
    d ∈ itemDefects symbol i items ↔
      ∃ j v, items[j]? = some v ∧ (∀ s, v ≠ .str s) ∧ d = .candidate symbol (i + j) v := by
  induction items generalizing i with
  | nil => simp [itemDefects]
  | cons w items ih =>
    have hcons : (∃ j v, (w :: items)[j]? = some v ∧ (∀ s, v ≠ .str s) ∧
          d = .candidate symbol (i + j) v) ↔
        ((∀ s, w ≠ .str s) ∧ d = .candidate symbol i w) ∨ d ∈ itemDefects symbol (i + 1) items := by
      rw [ih]
      constructor
      · rintro ⟨j, v, hj, hv, rfl⟩
        cases j with
        | zero =>
          obtain rfl : w = v := Option.some.inj hj
          exact .inl ⟨hv, rfl⟩
        | succ j => exact .inr ⟨j, v, hj, hv, by rw [Nat.add_assoc, Nat.add_comm 1]⟩
      · rintro (⟨hw, rfl⟩ | ⟨j, v, hj, hv, rfl⟩)
        · exact ⟨0, w, rfl, hw, rfl⟩
        · exact ⟨j + 1, v, hj, hv, by rw [Nat.add_assoc, Nat.add_comm 1]⟩
    rw [hcons]
    cases w with
    | str t => simp [itemDefects]
    | _ => simp [itemDefects]

/-- The numbers of the defects of a list go up. -/
theorem index_itemDefects_sublist {symbol : Text} {i : Nat} {items : List Value} :
    ((itemDefects symbol i items).map Defect.index).Sublist
      ((List.range' i items.length).map fun j => some (Int.ofNat j)) := by
  induction items generalizing i with
  | nil => exact List.Sublist.slnil
  | cons v items ih =>
    rw [List.length_cons, List.range'_succ, List.map_cons]
    cases v with
    | str t => exact ih.cons _
    | _ => exact ih.cons_cons _

theorem nodup_index_itemDefects (symbol : Text) (i : Nat) (items : List Value) :
    ((itemDefects symbol i items).map Defect.index).Nodup := by
  refine index_itemDefects_sublist.nodup (List.Nodup.map ?_ List.nodup_range')
  intro a b hab
  exact Int.ofNat.inj (Option.some.inj hab)

/-! ## Entries -/

variable {file : Option Text}

/-- An entry is searched for what has to be reported of it. -/
theorem mem_entryDefects_iff {e : Value × Value} {d : Diagnostic} :
    d ∈ (entryDefects e).map (·.diagnostic file) ↔ Reports file e d := by
  obtain ⟨k, v⟩ := e
  constructor
  · intro h
    obtain ⟨defect, hdefect, rfl⟩ := List.mem_map.mp h
    rw [entryDefects] at hdefect
    split at hdefect
    · next hk =>
      rw [List.mem_singleton.mp hdefect]
      exact .key (symbol?_eq_none_iff.mp hk)
    · next t hk =>
      obtain ⟨rfl, ht⟩ := symbol?_eq_some_iff.mp hk
      split at hdefect
      · exact absurd hdefect List.not_mem_nil
      · next items hv =>
        obtain rfl : v = .list items := hv
        obtain ⟨j, w, hj, hw, rfl⟩ := mem_itemDefects_iff.mp hdefect
        rw [Nat.zero_add]
        exact .candidate ht hj hw
      · next hstr hlist =>
        rw [List.mem_singleton.mp hdefect]
        exact .candidates ht hstr hlist
  · intro h
    cases h with
    | key hk =>
      rw [entryDefects, symbol?_eq_none_iff.mpr hk]
      exact List.mem_singleton.mpr rfl
    | @candidates t v ht hstr hlist =>
      rw [entryDefects, symbol?_eq_some_iff.mpr ⟨rfl, ht⟩]
      cases v with
      | str s => exact absurd rfl (hstr s)
      | list items => exact absurd rfl (hlist items)
      | _ => exact List.mem_singleton.mpr rfl
    | @candidate t items i w ht hi hw =>
      rw [entryDefects, symbol?_eq_some_iff.mpr ⟨rfl, ht⟩]
      refine List.mem_map.mpr ⟨.candidate t i w, mem_itemDefects_iff.mpr ⟨i, w, hi, hw, ?_⟩, rfl⟩
      rw [Nat.zero_add]

/-- No two diagnostics of an entry are the same, for they differ in the number
of the item. -/
theorem nodup_entryDefects (e : Value × Value) :
    ((entryDefects e).map (·.diagnostic file)).Nodup := by
  rw [entryDefects]
  split
  · exact List.nodup_singleton _
  · split
    · exact List.nodup_nil
    · next items _ =>
      have h := nodup_index_itemDefects
      refine List.Nodup.of_map Diagnostic.index ?_
      rw [List.map_map]
      exact h _ 0 items
    · exact List.nodup_singleton _

/-! ## Mappings -/

/-- The diagnostics of a mapping with the numbers of their entries. -/
def found (raw : List (Value × Value)) (file : Option Text) : List (Nat × Diagnostic) :=
  raw.zipIdx.flatMap fun e => (entryDefects e.1).map fun d => (e.2, d.diagnostic file)

theorem map_found (raw : List (Value × Value)) :
    (found raw file).map (·.2) = (defects raw).map (·.diagnostic file) := by
  have hraw : defects raw = raw.zipIdx.flatMap fun e => entryDefects e.1 := by
    conv_lhs => rw [defects, ← List.zipIdx_map_fst 0 raw, List.flatMap_map]
  rw [found, hraw, List.map_flatMap, List.map_flatMap]
  refine congrArg (List.flatMap · _) (funext fun e => ?_)
  rw [List.map_map]
  rfl

theorem mem_found_iff {raw : List (Value × Value)} {i : Nat} {d : Diagnostic} :
    (i, d) ∈ found raw file ↔ ∃ e, raw[i]? = some e ∧ Reports file e d := by
  rw [found, List.mem_flatMap]
  constructor
  · rintro ⟨⟨e, j⟩, he, h⟩
    obtain ⟨defect, hdefect, heq⟩ := List.mem_map.mp h
    obtain ⟨rfl, rfl⟩ := Prod.mk.inj heq
    exact ⟨e, List.mk_mem_zipIdx_iff_getElem?.mp he,
      mem_entryDefects_iff.mp (List.mem_map.mpr ⟨defect, hdefect, rfl⟩)⟩
  · rintro ⟨e, he, h⟩
    obtain ⟨defect, hdefect, rfl⟩ := List.mem_map.mp (mem_entryDefects_iff.mpr h)
    exact ⟨(e, i), List.mk_mem_zipIdx_iff_getElem?.mpr he, List.mem_map.mpr ⟨defect, hdefect, rfl⟩⟩

theorem nodup_found (raw : List (Value × Value)) : (found raw file).Nodup := by
  rw [found, List.nodup_flatMap]
  constructor
  · rintro ⟨e, i⟩ -
    refine List.Nodup.of_map Prod.snd ?_
    rw [List.map_map]
    exact nodup_entryDefects e
  · -- different entries have different numbers
    have hnumbers : (raw.zipIdx.map Prod.snd).Nodup := by
      rw [List.zipIdx_map_snd]
      exact List.nodup_range'
    refine (List.pairwise_map.mp hnumbers).imp ?_
    intro a b hab
    refine List.disjoint_left.mpr ?_
    intro x hxa hxb
    obtain ⟨d, -, rfl⟩ := List.mem_map.mp hxa
    obtain ⟨d', -, heq⟩ := List.mem_map.mp hxb
    exact hab (Prod.mk.inj heq).1.symm

theorem reportOf_validate (raw : List (Value × Value)) :
    reportOf (validate raw file) = Diagnostic.sort ((defects raw).map (·.diagnostic file)) := by
  rw [validate]
  cases hd : defects raw with
  | nil => exact (Diagnostic.sort_of_pairwise List.Pairwise.nil).symm
  | cons d ds => rfl

theorem exists_validate_iff {raw : List (Value × Value)} :
    (∃ g, validate raw file = .ok g) ↔ reportOf (validate raw file) = [] := by
  constructor
  · rintro ⟨g, h⟩
    rw [h]
    rfl
  · intro h
    cases hv : validate raw file with
    | ok g => exact ⟨g, rfl⟩
    | error ds =>
      rw [hv] at h
      exact absurd h (ne_nil_of_validate hv)

/-! ## Grammars -/

/-- The entries of a valid mapping become the symbols of its grammar. -/
theorem becomes_of_defects {raw : List (Value × Value)} (h : defects raw = []) :
    List.Forall₂ Becomes raw (raw.filterMap symbolOf) := by
  induction raw with
  | nil => exact .nil
  | cons e raw ih =>
    rw [defects, List.flatMap_cons, List.append_eq_nil_iff] at h
    obtain ⟨symbol, candidates, hof, hname, hgives⟩ := symbolOf_of_entryDefects h.1
    rw [List.filterMap_cons_some hof]
    exact .cons ⟨hname, hgives⟩ (ih h.2)

theorem itemDefects_texts (symbol : Text) (i : Nat) (ts : List Text) :
    itemDefects symbol i (ts.map .str) = [] := by
  induction ts generalizing i with
  | nil => rfl
  | cons t ts ih => exact ih (i + 1)

/-- An entry that was accepted is accepted again as its symbol with a list. -/
theorem accepted_again {e : Value × Value} (h : entryDefects e = []) {s : Text × List Text}
    (hs : Becomes e s) :
    entryDefects (.str s.1, .list (s.2.map .str)) = [] ∧
      symbolOf (.str s.1, .list (s.2.map .str)) = some s := by
  obtain ⟨k, v⟩ := e
  obtain ⟨t, candidates⟩ := s
  obtain ⟨rfl, -⟩ : k = .str t ∧ _ := hs
  have hname : symbol? (.str t) = some t := by
    rw [symbol?_eq_some_iff]
    refine ⟨rfl, fun hblank => ?_⟩
    rw [entryDefects, symbol?_eq_none_iff.mpr (by rintro _ ⟨⟩; exact hblank)] at h
    cases h
  constructor
  · rw [entryDefects, hname]
    exact itemDefects_texts t 0 candidates
  · have htexts : (candidates.map Value.str).filterMap Value.text? = candidates := by
      rw [List.filterMap_map]
      exact List.filterMap_some
    rw [symbolOf, hname]
    show some (t, (candidates.map Value.str).filterMap Value.text?) = _
    rw [htexts]

/-- A grammar is valid as it stands. -/
theorem validate_plain {raw : List (Value × Value)} {g : Grammar}
    (h : validate raw file = .ok g) (file' : Option Text) : validate (plain g) file' = .ok g := by
  obtain ⟨hdefects, rfl⟩ := validate_eq_ok_iff.mp h
  rw [validate_eq_ok_iff]
  clear h
  induction raw with
  | nil => exact ⟨rfl, rfl⟩
  | cons e raw ih =>
    rw [defects, List.flatMap_cons, List.append_eq_nil_iff] at hdefects
    obtain ⟨symbol, candidates, hof, hname, hgives⟩ := symbolOf_of_entryDefects hdefects.1
    obtain ⟨hnone, hsame⟩ := accepted_again hdefects.1 (s := (symbol, candidates)) ⟨hname, hgives⟩
    obtain ⟨hrest, hgrammar⟩ := ih hdefects.2
    rw [List.filterMap_cons_some hof, plain, List.map_cons]
    refine ⟨?_, ?_⟩
    · rw [defects, List.flatMap_cons, hnone]
      exact hrest
    · rw [List.filterMap_cons_some hsame]
      exact congrArg _ hgrammar

/-- **What validation reports and what it makes of a mapping.** -/
theorem validate_reports (raw : List (Value × Value)) (file : Option Text) :
    let report := reportOf (validate raw file)
    (∃ found : List (Nat × Diagnostic), found.Nodup ∧
      (∀ i d, (i, d) ∈ found ↔ ∃ e, raw[i]? = some e ∧ Reports file e d) ∧
      report.Perm (found.map (·.2))) ∧
    report.Pairwise (fun a b => a.key.parts ≤ b.key.parts) ∧
    ((∃ g, validate raw file = .ok g) ↔ report = []) ∧
    ∀ g, validate raw file = .ok g →
      List.Forall₂ Becomes raw g ∧ ∀ file', validate (plain g) file' = .ok g := by
  intro report
  have hreport : report = Diagnostic.sort ((found raw file).map (·.2)) := by
    rw [map_found]
    exact reportOf_validate raw
  refine ⟨⟨found raw file, nodup_found raw, fun i d => mem_found_iff, ?_⟩, ?_,
    exists_validate_iff, ?_⟩
  · rw [hreport]
    exact List.mergeSort_perm _ _
  · rw [hreport]
    refine (Diagnostic.pairwise_sort _).imp ?_
    intro a b hab
    exact Diagnostic.Key.le_eq_true_iff.mp hab
  · intro g hg
    obtain ⟨hdefects, rfl⟩ := validate_eq_ok_iff.mp hg
    exact ⟨becomes_of_defects hdefects, validate_plain hg⟩

end TextGrammar.Validation
