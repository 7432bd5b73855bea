/-
# `TextGrammar.Random.Source` — sources of random numbers

A source is a step: from a state it gives a number and the state after
it.  What a program has drawn is then the first numbers of its source,
and the rest of the source starts at the state it left.
-/
import TextGrammar.Number.Binary64

namespace TextGrammar

/-- One draw: the number and the state behind it. -/
abbrev Source (σ : Type) := σ → Binary64 × σ

namespace Source

variable {σ : Type}

/-- The first `n` numbers of a source. -/
def take (draw : Source σ) : Nat → σ → List Binary64
  | 0, _ => []
  | n + 1, s => (draw s).1 :: take draw n (draw s).2

/-- The state after `n` draws. -/
def advance (draw : Source σ) : Nat → σ → σ
  | 0, s => s
  | n + 1, s => advance draw n (draw s).2

/-- The same number at every draw. -/
def constant (x : Binary64) : Source Unit := fun _ => (x, ())

/-- The given numbers in order, and from the first again after the last.
The state holds the numbers that are left. -/
def cycle (numbers : List Binary64) : Source (List Binary64) := fun left =>
  match left, numbers with
  | x :: rest, _ => (x, rest)
  | [], x :: rest => (x, rest)
  | [], [] => (.ofInt 0, [])

end Source

end TextGrammar
