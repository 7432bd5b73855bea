/-
# `TextGrammar.Expansion.Render` — expansion by recursion

The text of a list of tokens, told by recursion on what they refer to:
the candidate that is drawn for a reference is rendered in its place, and
what it has bound and drawn goes on to the tokens behind it.

The recursion ends because a reference below the ceiling goes one level
deeper, and no rendering comes back from a lower level than it began at;
that is why a rendering carries `depth_le`.
-/
import TextGrammar.Expansion.Machine

namespace TextGrammar.Expansion

variable {σ : Type}

/-- A result that began at a level, which it has not gone back from. -/
structure Rendering (σ : Type) (depth : Nat) extends Result σ where
  depth_le : depth ≤ store.depth

/-- A text in front of a rendering that began no higher. -/
def Rendering.after {m n : Nat} (t : Text) (r : Rendering σ n) (h : m ≤ n) : Rendering σ m :=
  ⟨⟨t ++ r.text, r.store⟩, Nat.le_trans h r.depth_le⟩

/-- Renders tokens from left to right. -/
def renderFrom (c : Setting σ) : (ts : List Token) → (s : Store σ) → Rendering σ s.depth
  | [], s => ⟨⟨[], s⟩, Nat.le_refl _⟩
  | .text value :: rest, s => (renderFrom c rest s).after value (Nat.le_refl _)
  | .action key value :: rest, s => (renderFrom c rest (s.bind key value)).after [] (Nat.le_refl _)
  | .rule key names :: rest, s =>
    match s.symbols.get? key with
    | none => (renderFrom c rest s).after (Token.reference key names) (Nat.le_refl _)
    | some candidates =>
      let chosen := (s.pick c.draw key candidates).1
      let deeper := (s.pick c.draw key candidates).2
      if s.depth < ceiling then
        match renderFrom c (Rule.tokens chosen) deeper with
        | ⟨inner, h⟩ =>
          (renderFrom c rest inner.store).after (c.modifiers.apply inner.text names)
            (Nat.le_of_succ_le h)
      else
        (renderFrom c rest deeper).after (c.modifiers.apply chosen names) (Nat.le_succ _)
termination_by ts s => (ceiling - s.depth, ts.length)
decreasing_by
  · exact Prod.Lex.right _ (Nat.lt_succ_self _)
  · exact Prod.Lex.right _ (Nat.lt_succ_self _)
  · exact Prod.Lex.right _ (Nat.lt_succ_self _)
  · exact Prod.Lex.left _ _ (Nat.sub_lt_sub_left ‹_› (Nat.lt_succ_self _))
  · exact Prod.Lex.left _ _ (Nat.sub_lt_sub_left ‹_› h)
  · have : ceiling - (s.depth + 1) = ceiling - s.depth := by omega
    simp only [Store.pick, this]
    exact Prod.Lex.right _ (Nat.lt_succ_self _)

/-- The text of tokens, and the store behind them. -/
def render (c : Setting σ) (ts : List Token) (s : Store σ) : Result σ :=
  (renderFrom c ts s).toResult

end TextGrammar.Expansion
