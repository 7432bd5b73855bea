/-
# `TextGrammar.Proofs.Assoc.Distinct` — entries with keys of their own

If no entry repeats the key of one before it, the map that the entries make is
the list of the entries; otherwise it is shorter.  Nothing is asked of `==`
here, which need not be transitive for this.

    ofEntries_of_distinct           the entries are the map
    distinct_of_length_ofEntries    the map has as many entries as were given
-/
import Mathlib.Data.List.Induction
import TextGrammar.Proofs.Assoc

namespace TextGrammar.Assoc

variable {κ α : Type} [BEq κ] {m es : List (κ × α)} {k : κ} {a : α}

/-- No entry has the key of an entry before it. -/
def Distinct (es : List (κ × α)) : Prop := es.Pairwise fun p q => (q.1 == p.1) = false

theorem distinct_append_singleton_iff {e : κ × α} :
    Distinct (es ++ [e]) ↔ Distinct es ∧ ∀ p ∈ es, (e.1 == p.1) = false := by
  rw [Distinct, Distinct, List.pairwise_append]
  simp

theorem contains_eq_false_iff : contains m k = false ↔ ∀ p ∈ m, (k == p.1) = false := by
  induction m with
  | nil => simp [contains, get?]
  | cons e m ih =>
    rw [contains, Option.isSome_eq_false_iff, Option.isNone_iff_eq_none] at ih
    rw [contains, Option.isSome_eq_false_iff, Option.isNone_iff_eq_none, get?,
      List.forall_mem_cons, ← ih]
    cases k == e.1 <;> simp

/-- A fresh key goes to the end. -/
theorem insert_of_contains_eq_false (h : contains m k = false) :
    insert m k a = m ++ [(k, a)] := by
  rw [contains_eq_false_iff] at h
  induction m with
  | nil => rfl
  | cons e m ih =>
    obtain ⟨he, hm⟩ := List.forall_mem_cons.mp h
    rw [insert, he, if_neg Bool.false_ne_true, ih hm, List.cons_append]

/-- A key that equals one in the map leaves the keys as they are. -/
theorem keys_insert_of_contains (h : contains m k = true) : keys (insert m k a) = keys m := by
  induction m with
  | nil => cases h
  | cons e m ih =>
    rw [contains, get?] at h
    rw [insert]
    split at h
    · next hk =>
      rw [if_pos hk]
      rfl
    · next hk =>
      rw [if_neg hk]
      exact congrArg (e.1 :: ·) (ih h)

theorem keys_prefix_insert (m : Assoc κ α) (k : κ) (a : α) : keys m <+: keys (insert m k a) := by
  cases h : contains m k with
  | true => exact (keys_insert_of_contains (a := a) h).symm ▸ List.prefix_rfl
  | false =>
    rw [insert_of_contains_eq_false h, keys, keys, List.map_append]
    exact List.prefix_append _ _

theorem length_insert (m : Assoc κ α) (k : κ) (a : α) :
    (insert m k a).length = if contains m k then m.length else m.length + 1 := by
  cases h : contains m k with
  | true =>
    have hlength := congrArg List.length (keys_insert_of_contains (a := a) h)
    rwa [keys, keys, List.length_map, List.length_map] at hlength
  | false =>
    rw [insert_of_contains_eq_false h, List.length_append]
    rfl

/-! ## Maps that entries make -/

theorem ofEntries_append_singleton (es : List (κ × α)) (e : κ × α) :
    ofEntries (es ++ [e]) = insert (ofEntries es) e.1 e.2 := List.foldl_append

theorem ofEntries_of_distinct (h : Distinct es) : ofEntries es = es := by
  induction es using List.reverseRecOn with
  | nil => rfl
  | append_singleton es e ih =>
    rw [distinct_append_singleton_iff] at h
    rw [ofEntries_append_singleton, ih h.1,
      insert_of_contains_eq_false (contains_eq_false_iff.mpr h.2)]

/-- What follows takes no key out of a map. -/
theorem mem_keys_ofEntries_append {es' : List (κ × α)} (h : k ∈ keys (ofEntries es)) :
    k ∈ keys (ofEntries (es ++ es')) := by
  induction es' using List.reverseRecOn with
  | nil => rwa [List.append_nil]
  | append_singleton es' e ih =>
    rw [← List.append_assoc, ofEntries_append_singleton]
    exact (keys_prefix_insert _ e.1 e.2).subset ih

theorem length_ofEntries_le (es : List (κ × α)) : (ofEntries es).length ≤ es.length := by
  induction es using List.reverseRecOn with
  | nil => exact Nat.le_refl 0
  | append_singleton es e ih =>
    rw [ofEntries_append_singleton, length_insert, List.length_append, List.length_singleton]
    split <;> omega

/-- Entries are lost if a key is repeated. -/
theorem distinct_of_length_ofEntries (h : (ofEntries es).length = es.length) : Distinct es := by
  induction es using List.reverseRecOn with
  | nil => exact List.Pairwise.nil
  | append_singleton es e ih =>
    have hle := length_ofEntries_le es
    rw [ofEntries_append_singleton, length_insert, List.length_append, List.length_singleton] at h
    split at h
    · omega
    · next hk =>
      have hes : Distinct es := ih (Nat.succ.inj h)
      rw [ofEntries_of_distinct hes, Bool.not_eq_true, contains_eq_false_iff] at hk
      exact distinct_append_singleton_iff.mpr ⟨hes, hk⟩

end TextGrammar.Assoc
