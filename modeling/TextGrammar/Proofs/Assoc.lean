/-
# `TextGrammar.Proofs.Assoc` — keys, entries and mapped values

What a map holds can be said of its entries, of its keys or of its look-ups;
these lemmas go from one to the other.  To map a function over the values
changes neither the keys nor their order, so that it goes through looking up
and inserting.
-/
import TextGrammar.Assoc

namespace TextGrammar.Assoc

variable {κ α β : Type} [BEq κ]

/-- The map with a function applied to every value. -/
def mapValues (f : α → β) (m : Assoc κ α) : Assoc κ β := m.map fun e => (e.1, f e.2)

theorem get?_mapValues (f : α → β) (m : Assoc κ α) (k : κ) :
    get? (mapValues f m) k = (get? m k).map f := by
  induction m with
  | nil => rfl
  | cons e m ih =>
    rw [mapValues, List.map_cons, get?, get?]
    split
    · rfl
    · exact ih

theorem insert_mapValues (f : α → β) (m : Assoc κ α) (k : κ) (a : α) :
    insert (mapValues f m) k (f a) = mapValues f (insert m k a) := by
  induction m with
  | nil => rfl
  | cons e m ih =>
    rw [mapValues, List.map_cons, insert, insert]
    split
    · rfl
    · exact congrArg ((e.1, f e.2) :: ·) ih

/-- An entry of a map into which a value was inserted is an old one or has
that value. -/
theorem mem_insert {m : Assoc κ α} {k : κ} {a : α} {e : κ × α} (h : e ∈ insert m k a) :
    e.2 = a ∨ e ∈ m := by
  induction m with
  | nil =>
    rw [insert, List.mem_singleton] at h
    exact .inl (by rw [h])
  | cons e' m ih =>
    rw [insert] at h
    split at h
    · rcases List.mem_cons.mp h with rfl | h
      · exact .inl rfl
      · exact .inr (List.mem_cons_of_mem _ h)
    · rcases List.mem_cons.mp h with rfl | h
      · exact .inr List.mem_cons_self
      · rcases ih h with h | h
        · exact .inl h
        · exact .inr (List.mem_cons_of_mem _ h)

variable [LawfulBEq κ]

theorem mem_of_get? {m : Assoc κ α} {k : κ} {a : α} (h : get? m k = some a) : (k, a) ∈ m := by
  induction m with
  | nil => cases h
  | cons e m ih =>
    obtain ⟨k', a'⟩ := e
    rw [get?] at h
    split at h
    · next hk =>
      rw [eq_of_beq hk, Option.some.inj h]
      exact List.mem_cons_self
    · exact List.mem_cons_of_mem _ (ih h)

theorem get?_eq_none_iff {m : Assoc κ α} {k : κ} : get? m k = none ↔ k ∉ keys m := by
  induction m with
  | nil => simp [get?, keys]
  | cons e m ih =>
    obtain ⟨k', a'⟩ := e
    rw [get?, keys, List.map_cons, List.mem_cons, not_or]
    split
    · next hk => simp [eq_of_beq hk]
    · next hk =>
      rw [beq_iff_eq] at hk
      rw [ih]
      exact ⟨fun h => ⟨hk, h⟩, fun h => h.2⟩

/-- Without repeated keys a look-up finds every entry. -/
theorem get?_eq_some_iff {m : Assoc κ α} (hn : (keys m).Nodup) {k : κ} {a : α} :
    get? m k = some a ↔ (k, a) ∈ m := by
  refine ⟨mem_of_get?, fun h => ?_⟩
  induction m with
  | nil => exact absurd h List.not_mem_nil
  | cons e m ih =>
    obtain ⟨k', a'⟩ := e
    rw [keys, List.map_cons, List.nodup_cons] at hn
    rw [get?]
    rcases List.mem_cons.mp h with he | hm
    · cases he
      rw [if_pos (beq_self_eq_true k)]
    · have hk : ¬ k = k' := by
        rintro rfl
        exact hn.1 (List.mem_map.mpr ⟨(k, a), hm, rfl⟩)
      rw [if_neg (by simpa using hk)]
      exact ih hn.2 hm

/-- The order of the entries does not matter for a look-up. -/
theorem get?_of_perm {m m' : Assoc κ α} (h : m.Perm m') (hn : (keys m).Nodup) (k : κ) :
    get? m' k = get? m k := by
  have hn' : (keys m').Nodup := (h.map _).nodup_iff.mp hn
  refine Option.ext fun a => ?_
  rw [get?_eq_some_iff hn, get?_eq_some_iff hn']
  exact h.mem_iff.symm

end TextGrammar.Assoc
