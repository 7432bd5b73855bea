/-
# `TextGrammar.Proofs.Expansion.Choice` — what can be chosen

A number chooses an item of the list or nothing, whatever number it is, and
which place it chooses depends on the length of the list alone.
-/
import TextGrammar.Expansion.Choice
import TextGrammar.Proofs.Number.Binary64

namespace TextGrammar.Choice

variable {α β : Type}

theorem mem_of_itemAt {items : List α} {a : α} :
    ∀ {i : Int}, itemAt items i = some a → a ∈ items
  | .ofNat _, h => List.mem_of_getElem? h
  | .negSucc _, h => nomatch h

theorem itemAt_map (f : α → β) (items : List α) :
    ∀ i : Int, itemAt (items.map f) i = (itemAt items i).map f
  | .ofNat _ => List.getElem?_map
  | .negSucc _ => rfl

theorem mem_of_choose {x : Binary64} {items : List α} {a : α}
    (h : choose x items = .ok (some a)) : a ∈ items := by
  rw [choose] at h
  cases hi : index x items.length with
  | error e =>
    rw [hi] at h
    cases h
  | ok i =>
    rw [hi] at h
    exact mem_of_itemAt (Except.ok.inj h)

/-- The choice goes by the place, not by what is there. -/
theorem choose_map (f : α → β) (x : Binary64) (items : List α) :
    choose x (items.map f) = (choose x items).map (Option.map f) := by
  rw [choose, choose, List.length_map]
  cases index x items.length with
  | error e => rfl
  | ok i => exact congrArg Except.ok (itemAt_map f items i)

theorem candidate_cases (x : Binary64) (candidates : List (List Char)) :
    candidate x candidates ∈ candidates ∨ candidate x candidates = [] := by
  rw [candidate]
  split
  · next h => exact .inl (mem_of_choose h)
  · exact .inr rfl

theorem index_one {x : Binary64} (h : x.InUnit) : index x 1 = .ok 0 := by
  rw [index, Binary64.mulNat_one h.canonical]
  cases x with
  | nan => exact h.elim
  | infinity s => exact h.elim
  | finite s m e =>
    obtain ⟨-, hge, hlt⟩ := h
    have hfloor : Int.fdiv (Binary64.ratio (Binary64.signed s m) e).1
        (Binary64.ratio (Binary64.signed s m) e).2 = 0 := by
      rw [Int.fdiv_eq_ediv_of_nonneg _ (Int.natCast_nonneg _)]
      exact Int.ediv_eq_zero_of_lt hge hlt
    exact congrArg Except.ok hfloor

/-- A number of [0, 1) chooses a candidate that is alone. -/
theorem candidate_singleton {x : Binary64} (h : x.InUnit) (t : List Char) :
    candidate x [t] = t := by
  rw [candidate, choose, List.length_singleton, index_one h]
  rfl

end TextGrammar.Choice
