/-
# `TextGrammar.Proofs.Grammar.Diagnostic` — diagnostics in order

`Diagnostic.sort` puts diagnostics in the order of their keys and keeps those
with one key as they were found.  So the sorted list is known from what stands
at each key, in its order, and from nothing else:

    sort_eq_sort_iff    sort ds = sort ds' ↔ SameByKey ds ds'

Two searches that find the same things in different orders give lists that are
the same by key, as long as one place of the search does not find what another
one files under the same key (`sameByKey_flatMap`).

A key tells less than a diagnostic: it leaves out the message and the kind, and
a missing file, symbol or number is the same to it as an empty one or `-1`.  So
being in order does not determine a list, and it takes stability to say which
one sorting gives:

    sort_uniquely_stable    SortedFrom ds es ↔ es = sort ds; sorting twice is
                            sorting once; and sorting the parts of a list first
                            changes nothing

What the line for a diagnostic says is told by cases of what is there to be
named (`Tells`).
-/
import Mathlib.Data.Prod.Lex
import TextGrammar.Grammar.Diagnostic
import TextGrammar.Proofs.Text.Order

namespace TextGrammar.Diagnostic

/-! ## The order of keys -/

/-- The parts of a key, the most significant one first. -/
def Key.parts (k : Key) : Text ×ₗ Text ×ₗ Int ×ₗ Text :=
  toLex (k.file, toLex (k.symbol, toLex (k.index, k.code)))

theorem Key.parts_injective {a b : Key} (h : a.parts = b.parts) : a = b := by
  cases a
  cases b
  cases h
  rfl

/-- Keys are compared part by part. -/
theorem Key.le_eq_true_iff {a b : Key} : a.le b = true ↔ a.parts ≤ b.parts := by
  have hcases : ∀ {α : Type} [LinearOrder α] {x y : α} {p : Prop},
      (if x ≠ y then x ≤ y else p) ↔ x < y ∨ x = y ∧ p := by
    intro α _ x y p
    by_cases h : x = y
    · simp [h]
    · simp [h, le_iff_lt_or_eq]
  simp only [parts, Prod.Lex.le_iff, ofLex_toLex, ← hcases, ← Text.le_eq_true_iff]
  rw [le]
  split
  · rfl
  · split
    · rfl
    · split <;> simp_all

theorem Key.le_trans (a b c : Key) (hab : a.le b = true) (hbc : b.le c = true) :
    a.le c = true := by
  rw [le_eq_true_iff] at hab hbc ⊢
  exact hab.trans hbc

theorem Key.le_total (a b : Key) : (a.le b || b.le a) = true := by
  rw [Bool.or_eq_true, le_eq_true_iff, le_eq_true_iff]
  exact LinearOrder.le_total a.parts b.parts

theorem Key.le_antisymm {a b : Key} (hab : a.le b = true) (hba : b.le a = true) : a = b := by
  rw [le_eq_true_iff] at hab hba
  exact parts_injective (hab.antisymm hba)

/-! ## What sorting keeps -/

/-- The diagnostics with a key, as they stand in a list. -/
def withKey (k : Key) (ds : List Diagnostic) : List Diagnostic := ds.filter (·.key = k)

theorem key_of_mem_withKey {k : Key} {ds : List Diagnostic} {d : Diagnostic}
    (h : d ∈ withKey k ds) : d.key = k := by
  rw [withKey, List.mem_filter] at h
  exact of_decide_eq_true h.2

theorem pairwise_withKey (k : Key) (ds : List Diagnostic) :
    (withKey k ds).Pairwise fun a b => a.key.le b.key = true := by
  refine List.pairwise_of_forall_mem_list fun a ha b hb => ?_
  rw [key_of_mem_withKey ha, key_of_mem_withKey hb, Key.le_eq_true_iff]

theorem pairwise_sort (ds : List Diagnostic) :
    (sort ds).Pairwise fun a b => a.key.le b.key = true :=
  List.pairwise_mergeSort (fun a b c => Key.le_trans a.key b.key c.key)
    (fun a b => Key.le_total a.key b.key) ds

/-- Diagnostics with one key keep the order in which they were found. -/
theorem withKey_sort (k : Key) (ds : List Diagnostic) : withKey k (sort ds) = withKey k ds := by
  have hsub : (withKey k ds).Sublist (sort ds) :=
    List.sublist_mergeSort (fun a b c => Key.le_trans a.key b.key c.key)
      (fun a b => Key.le_total a.key b.key) (pairwise_withKey k ds) List.filter_sublist
  have hfilter : withKey k (withKey k ds) = withKey k ds := by
    rw [withKey, withKey, List.filter_filter]
    simp
  have hsub' : (withKey k ds).Sublist (withKey k (sort ds)) := by
    have h := hsub.filter (p := fun d : Diagnostic => decide (d.key = k))
    rwa [← withKey, hfilter] at h
  have hlength : (withKey k ds).length = (withKey k (sort ds)).length :=
    ((List.mergeSort_perm ds _).filter _).length_eq.symm
  exact (hsub'.eq_of_length hlength).symm

theorem sort_of_pairwise {ds : List Diagnostic}
    (h : ds.Pairwise fun a b => a.key.le b.key = true) : sort ds = ds :=
  List.mergeSort_of_pairwise h

@[simp] theorem sort_sort (ds : List Diagnostic) : sort (sort ds) = sort ds :=
  sort_of_pairwise (pairwise_sort ds)

@[simp] theorem sort_singleton (d : Diagnostic) : sort [d] = [d] :=
  sort_of_pairwise (List.pairwise_singleton _ d)

/-! ## What determines a sorted list -/

/-- The same diagnostics stand at each key, in the same order. -/
def SameByKey (ds ds' : List Diagnostic) : Prop := ∀ k, withKey k ds = withKey k ds'

/-- The first of two lists that are in order is the first of the other one,
for each of them comes at or before the other. -/
theorem eq_of_sorted {ds ds' : List Diagnostic}
    (h : ds.Pairwise fun a b => a.key.le b.key = true)
    (h' : ds'.Pairwise fun a b => a.key.le b.key = true) (hsame : SameByKey ds ds') :
    ds = ds' := by
  induction ds generalizing ds' with
  | nil =>
    cases ds' with
    | nil => rfl
    | cons d' ds' => simpa [withKey] using hsame d'.key
  | cons d ds ih =>
    cases ds' with
    | nil => simpa [withKey] using hsame d.key
    | cons d' ds' =>
      rw [List.pairwise_cons] at h h'
      have hd : d ∈ d' :: ds' := by
        have hmem : d ∈ withKey d.key (d' :: ds') := by
          rw [← hsame d.key]
          simp [withKey]
        exact List.mem_of_mem_filter hmem
      have hd' : d' ∈ d :: ds := by
        have hmem : d' ∈ withKey d'.key (d :: ds) := by
          rw [hsame d'.key]
          simp [withKey]
        exact List.mem_of_mem_filter hmem
      have hkey : d.key = d'.key := by
        rcases List.mem_cons.mp hd with rfl | hd
        · rfl
        · rcases List.mem_cons.mp hd' with rfl | hd'
          · rfl
          · exact Key.le_antisymm (h.1 d' hd') (h'.1 d hd)
      have hhead := hsame d.key
      rw [withKey, withKey, List.filter_cons_of_pos (by simp),
        List.filter_cons_of_pos (by simp [hkey])] at hhead
      obtain ⟨rfl, -⟩ := List.cons.inj hhead
      refine congrArg (d :: ·) (ih h.2 h'.2 fun k => ?_)
      have hk := hsame k
      rw [withKey, withKey, List.filter_cons, List.filter_cons] at hk
      split at hk
      · exact (List.cons.inj hk).2
      · exact hk

/-- **A sorted list is known from what stands at each key.** -/
theorem sort_eq_sort_iff {ds ds' : List Diagnostic} :
    sort ds = sort ds' ↔ SameByKey ds ds' := by
  constructor
  · intro h k
    rw [← withKey_sort k ds, h, withKey_sort]
  · intro h
    refine eq_of_sorted (pairwise_sort ds) (pairwise_sort ds') fun k => ?_
    rw [withKey_sort, withKey_sort, h k]

/-! ## Searches in different orders -/

theorem SameByKey.append {ds ds' es es' : List Diagnostic} (h : SameByKey ds ds')
    (h' : SameByKey es es') : SameByKey (ds ++ es) (ds' ++ es') := by
  intro k
  have hk := h k
  have hk' := h' k
  rw [withKey, withKey] at hk hk' ⊢
  rw [List.filter_append, List.filter_append, hk, hk']

/-- Places can be searched in any order, provided that no two of them have
diagnostics with one key. -/
theorem sameByKey_flatMap {ι : Type} {l l' : List ι} {f : ι → List Diagnostic} (h : l.Perm l')
    (hkey : ∀ a ∈ l, ∀ b ∈ l, ∀ d ∈ f a, ∀ d' ∈ f b, d.key = d'.key → a = b) :
    SameByKey (l.flatMap f) (l'.flatMap f) := by
  intro k
  rw [withKey, withKey, List.filter_flatMap, List.filter_flatMap]
  induction h with
  | nil => rfl
  | cons a _ ih =>
    rw [List.flatMap_cons, List.flatMap_cons, ih fun x hx y hy =>
      hkey x (List.mem_cons_of_mem a hx) y (List.mem_cons_of_mem a hy)]
  | swap a b l =>
    simp only [List.flatMap_cons]
    -- one of the two has nothing at this key, or they are the same place
    cases ha : (f a).filter (·.key = k) with
    | nil => rfl
    | cons d ds =>
      cases hb : (f b).filter (·.key = k) with
      | nil => rfl
      | cons d' ds' =>
        have hd : d ∈ withKey k (f a) := by
          rw [withKey, ha]
          exact List.mem_cons_self
        have hd' : d' ∈ withKey k (f b) := by
          rw [withKey, hb]
          exact List.mem_cons_self
        obtain rfl : a = b := by
          refine hkey a (by simp) b (by simp) d (List.mem_of_mem_filter hd) d'
            (List.mem_of_mem_filter hd') ?_
          rw [key_of_mem_withKey hd, key_of_mem_withKey hd']
        rw [← ha, ← hb]
  | trans hl _ ih ih' =>
    rw [ih hkey, ih' fun x hx y hy => hkey x (hl.mem_iff.mpr hx) y (hl.mem_iff.mpr hy)]

/-! ## The one sorted list -/

/-- What diagnostics are ordered by, the most significant part first.  A
missing text counts as empty and a missing number as `-1`. -/
def rank (d : Diagnostic) : Text ×ₗ Text ×ₗ Int ×ₗ Text :=
  toLex (d.file.getD [], toLex (d.symbol.getD [], toLex (d.index.getD (-1), d.code)))

theorem parts_key (d : Diagnostic) : d.key.parts = d.rank := rfl

theorem Key.parts_surjective (r : Text ×ₗ Text ×ₗ Int ×ₗ Text) : ∃ k : Key, k.parts = r := by
  obtain ⟨file, symbol, index, code⟩ := r
  exact ⟨⟨file, symbol, index, code⟩, rfl⟩

theorem withKey_eq_filter_rank (k : Key) (ds : List Diagnostic) :
    withKey k ds = ds.filter (·.rank = k.parts) := by
  refine List.filter_congr fun d _ => decide_eq_decide.mpr ?_
  rw [← parts_key]
  exact ⟨congrArg Key.parts, Key.parts_injective⟩

/-- What it means that `es` is `ds` in order. -/
structure SortedFrom (ds es : List Diagnostic) : Prop where
  /-- No diagnostic is lost and none is added. -/
  perm : es.Perm ds
  /-- The ranks never go down. -/
  ordered : es.Pairwise fun a b => a.rank ≤ b.rank
  /-- Diagnostics with one rank stand as they stood. -/
  stable : ∀ r, es.filter (·.rank = r) = ds.filter (·.rank = r)

theorem sortedFrom_sort (ds : List Diagnostic) : SortedFrom ds (sort ds) where
  perm := List.mergeSort_perm ds _
  ordered := (pairwise_sort ds).imp Key.le_eq_true_iff.mp
  stable := by
    intro r
    obtain ⟨k, rfl⟩ := Key.parts_surjective r
    rw [← withKey_eq_filter_rank, ← withKey_eq_filter_rank, withKey_sort]

/-- Order and stability leave no choice. -/
theorem SortedFrom.eq_sort {ds es : List Diagnostic} (h : SortedFrom ds es) : es = sort ds := by
  have hordered : es.Pairwise fun a b => a.key.le b.key = true :=
    h.ordered.imp Key.le_eq_true_iff.mpr
  have hsame : SameByKey es ds := by
    intro k
    rw [withKey_eq_filter_rank, withKey_eq_filter_rank, h.stable]
  refine eq_of_sorted hordered (pairwise_sort ds) fun k => ?_
  rw [hsame k, withKey_sort]

/-- Batches can be sorted before they are joined: at each key they bring the
same diagnostics in the same order. -/
theorem sort_append_sort (ds es : List Diagnostic) :
    sort (sort ds ++ sort es) = sort (ds ++ es) := by
  rw [sort_eq_sort_iff]
  exact SameByKey.append (fun k => withKey_sort k ds) (fun k => withKey_sort k es)

/-- **Sorting is stable, and nothing else is**: of all lists only `sort ds` is
`ds` in order.  So sorting again moves nothing, and neither does sorting the
parts first. -/
theorem sort_uniquely_stable (ds : List Diagnostic) :
    (∀ es, SortedFrom ds es ↔ es = sort ds) ∧
    sort (sort ds) = sort ds ∧
    ∀ es, sort (ds ++ es) = sort (sort ds ++ sort es) := by
  refine ⟨fun es => ⟨SortedFrom.eq_sort, ?_⟩, sort_sort ds, fun es => ?_⟩
  · rintro rfl
    exact sortedFrom_sort ds
  · exact (sort_append_sort ds es).symm

/-- A missing place and an empty one are one key, so that these two stay as
they were found. -/
example :
    sort [⟨.plain, ['E'], ['b'], some [], some [], some (-1)⟩,
      ⟨.load, ['E'], ['a'], none, none, none⟩] =
    [⟨.plain, ['E'], ['b'], some [], some [], some (-1)⟩,
      ⟨.load, ['E'], ['a'], none, none, none⟩] := by
  cbv

/-! ## The line -/

/-- How a line names the file: one that is missing or empty is the grammar as
such. -/
inductive NamesFile : Option Text → Text → Prop
  | known {f : Text} (h : f ≠ []) : NamesFile (some f) f
  | empty : NamesFile (some []) "<grammar>".toList
  | missing : NamesFile none "<grammar>".toList

/-- How a line names the symbol and the candidate, behind the file. -/
inductive NamesSymbol : Option Text → Option Int → Text → Prop
  | candidate {s : Text} {i : Int} :
      NamesSymbol (some s) (some i) (" (".toList ++ s ++ '[' :: Text.ofInt i ++ "])".toList)
  | symbol {s : Text} (h : s ≠ []) : NamesSymbol (some s) none (" (".toList ++ s ++ [')'])
  | empty : NamesSymbol (some []) none []
  | missing {i : Option Int} : NamesSymbol none i []

/-- A line says where something is wrong, what is wrong by its code, and then
in words. -/
def Tells (line : Text) (d : Diagnostic) : Prop :=
  ∃ file symbol, NamesFile d.file file ∧ NamesSymbol d.symbol d.index symbol ∧
    line = file ++ symbol ++ ": ".toList ++ d.code ++ ": ".toList ++ d.message

/-- What stands behind the file. -/
def behindFile : Option Text → Text
  | none => []
  | some [] => []
  | some location => " (".toList ++ location ++ [')']

theorem place_eq (d : Diagnostic) :
    ∃ file, NamesFile d.file file ∧ d.place = file ++ behindFile d.location := by
  obtain ⟨kind, code, message, file, symbol, index⟩ := d
  rw [place]
  generalize (Diagnostic.mk kind code message file symbol index).location = location
  cases file with
  | none =>
    refine ⟨_, .missing, ?_⟩
    rcases location with _ | _ | _ <;> simp [behindFile]
  | some f =>
    cases f with
    | nil =>
      refine ⟨_, .empty, ?_⟩
      rcases location with _ | _ | _ <;> simp [behindFile]
    | cons c f =>
      refine ⟨_, .known (List.cons_ne_nil c f), ?_⟩
      rcases location with _ | _ | _ <;> simp [behindFile]

theorem namesSymbol_location (d : Diagnostic) :
    NamesSymbol d.symbol d.index (behindFile d.location) := by
  obtain ⟨kind, code, message, file, symbol, index⟩ := d
  cases symbol with
  | none => exact .missing
  | some s =>
    cases index with
    | none =>
      cases s with
      | nil => exact .empty
      | cons c s => exact .symbol (List.cons_ne_nil c s)
    | some i =>
      have hbehind : behindFile (some (s ++ '[' :: Text.ofInt i ++ [']'])) =
          " (".toList ++ s ++ '[' :: Text.ofInt i ++ "])".toList := by
        cases s <;> simp [behindFile]
      show NamesSymbol (some s) (some i) (behindFile (some (s ++ '[' :: Text.ofInt i ++ [']'])))
      rw [hbehind]
      exact .candidate

theorem tells_line (d : Diagnostic) : Tells d.line d := by
  obtain ⟨file, hfile, hplace⟩ := place_eq d
  refine ⟨file, behindFile d.location, hfile, namesSymbol_location d, ?_⟩
  rw [line, hplace]

end TextGrammar.Diagnostic
