/-
# `TextGrammar.Proofs.Text.Order` — the order of texts

`Text.le` compares texts character by character.  It is the lexicographic
order of lists, so that what holds of linear orders holds of it.
-/
import Mathlib.Data.Char
import Mathlib.Data.List.Lex
import TextGrammar.Text.Basic

namespace TextGrammar.Text

/-- A text comes before or at another one unless it comes behind it. -/
theorem le_eq_true_iff {s t : Text} : le s t = true ↔ s ≤ t := by
  rw [← not_lt]
  induction s generalizing t with
  | nil => simp [le]
  | cons c s ih =>
    cases t with
    | nil => simp [le]
    | cons d t =>
      rw [le, List.cons_lt_cons_iff, not_or, not_and]
      by_cases h : c = d
      · subst h
        rw [if_pos rfl, ih]
        exact ⟨fun hst => ⟨lt_irrefl c, fun _ => hst⟩, fun hst => hst.2 rfl⟩
      · rw [if_neg h, decide_eq_true_eq]
        constructor
        · intro hcd
          exact ⟨lt_asymm hcd, fun hdc => absurd hdc.symm h⟩
        · intro hcd
          exact lt_of_le_of_ne (not_lt.mp hcd.1) h

end TextGrammar.Text
