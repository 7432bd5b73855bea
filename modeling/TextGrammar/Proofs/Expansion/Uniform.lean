/-
# `TextGrammar.Proofs.Expansion.Uniform` — every item can be chosen

The numbers of a generator are the fractions `k / 2 ^ 53`.  Multiplied by `n`
and rounded they stay below `n`, and in order, so that the places chosen rise
with `k` from the first to the last and leave none out.

    choose_uniform    an item is chosen, in the order of the numbers, and each
                      item by some number

The place is not the integer below `k * n / 2 ^ 53`: three items and the number
`6004799503160661 / 2 ^ 53` give the last one, although three times the number
is less than two.
-/
import TextGrammar.Proofs.Expansion.Choice
import TextGrammar.Proofs.Number.Rounding

namespace TextGrammar.Choice

open Binary64

/-- The place chosen is the integer below the product. -/
theorem index_of_floor? {x : Binary64} {n : Nat} {i : Int} (h : (x.mulNat n).floor? = some i) :
    index x n = .ok i := by
  rw [index]
  cases hx : x.mulNat n with
  | nan =>
    rw [hx] at h
    cases h
  | infinity s =>
    rw [hx] at h
    cases h
  | finite s m e =>
    rw [hx] at h
    exact congrArg Except.ok (Option.some.inj h)

variable {k n : Nat}

theorem index_ofRatio (hk : k < Nat.pow 2 53) (hle : n ≤ Nat.pow 2 52) :
    index (ofRatio false k (Nat.pow 2 53)) n = .ok (floorOf (k * n)) := by
  apply index_of_floor?
  rw [mulNat_ofRatio hk]
  exact floor?_ofRatio (mul_lt_twoPow hk hle)

/-- The least `k` for which `k * n / 2 ^ 53` is not below `i` chooses the place
`i`: it is above `i` by less than `n / 2 ^ 53`, which is at most a half. -/
theorem exists_floorOf_eq {i : Nat} (hi : i < n) (hle : n ≤ Nat.pow 2 52) :
    ∃ k, k < Nat.pow 2 53 ∧ floorOf (k * n) = i := by
  have hpos : 0 < n := Nat.lt_of_le_of_lt (Nat.zero_le i) hi
  have hdiv := Nat.div_add_mod' (i * Nat.pow 2 53 + (n - 1)) n
  have hmod := Nat.mod_lt (i * Nat.pow 2 53 + (n - 1)) hpos
  refine ⟨(i * Nat.pow 2 53 + (n - 1)) / n, ?_, ?_⟩
  · rw [Nat.div_lt_iff_lt_mul hpos, Nat.mul_comm (Nat.pow 2 53)]
    have hnext := Nat.mul_le_mul_right (Nat.pow 2 53) (Nat.succ_le_of_lt hi)
    rw [Nat.succ_mul] at hnext
    simp only [Nat.pow_eq] at *
    omega
  · apply floorOf_eq
    · omega
    · omega

theorem choose_of_index {α : Type} {x : Binary64} {items : List α} {p : Nat}
    (h : index x items.length = .ok p) (hp : p < items.length) :
    choose x items = .ok (some items[p]) := by
  rw [choose, h]
  exact congrArg Except.ok (List.getElem?_eq_getElem hp)

/-- Among `n` items, at most `2 ^ 52`, a fraction `k / 2 ^ 53` chooses one; the
place does not fall with `k`, and each place is chosen.  The numbers that a
generator draws are such fractions. -/
theorem choose_uniform {α : Type} (items : List α) (hpos : 1 ≤ items.length)
    (hle : items.length ≤ Nat.pow 2 52) :
    ∃ place : Nat → Nat,
      (∀ k, k < Nat.pow 2 53 →
        (ofRatio false k (Nat.pow 2 53)).mulNat items.length =
            ofRatio false (k * items.length) (Nat.pow 2 53) ∧
          index (ofRatio false k (Nat.pow 2 53)) items.length = .ok (place k) ∧
          ∃ h : place k < items.length,
            choose (ofRatio false k (Nat.pow 2 53)) items = .ok (some items[place k])) ∧
      (∀ k k', k ≤ k' → k' < Nat.pow 2 53 → place k ≤ place k') ∧
      (∀ i, i < items.length → ∃ k, k < Nat.pow 2 53 ∧ place k = i) ∧
      ∀ g : Twister, ∃ k, k < Nat.pow 2 53 ∧
        (Twister.draw g).1 = ofRatio false k (Nat.pow 2 53) := by
  refine ⟨fun k => floorOf (k * items.length), ?_, ?_, ?_, ?_⟩
  · intro k hk
    have hindex := index_ofRatio hk hle
    have hlt := floorOf_mul_lt hk hpos hle
    exact ⟨mulNat_ofRatio hk _, hindex, hlt, choose_of_index hindex hlt⟩
  · intro k k' hkk hk'
    exact floorOf_mono (Nat.mul_le_mul_right _ hkk) (mul_lt_twoPow hk' hle)
  · intro i hi
    exact exists_floorOf_eq hi hle
  · intro g
    exact ⟨g.nextBits.1, nextBits_lt g, rfl⟩

theorem choose_uniform_last :
    1 ≤ ['a', 'b', 'c'].length ∧ ['a', 'b', 'c'].length ≤ Nat.pow 2 52 ∧
      ∃ k, k < Nat.pow 2 53 ∧
        choose (ofRatio false k (Nat.pow 2 53)) ['a', 'b', 'c'] = .ok (some 'c') := by
  have hpos : 1 ≤ ['a', 'b', 'c'].length := by decide
  have hle : ['a', 'b', 'c'].length ≤ Nat.pow 2 52 := by decide
  obtain ⟨place, hchoose, -, hall, -⟩ := choose_uniform ['a', 'b', 'c'] hpos hle
  obtain ⟨k, hk, hplace⟩ := hall 2 (by decide)
  obtain ⟨-, -, h, heq⟩ := hchoose k hk
  refine ⟨hpos, hle, k, hk, ?_⟩
  simp only [hplace] at heq
  exact heq

example :
    6004799503160661 * 3 < 2 * Nat.pow 2 53 ∧
      (index (ofRatio false 6004799503160661 (Nat.pow 2 53)) 3).toOption = some 2 := by
  decide +kernel

end TextGrammar.Choice
