/-
# `TextGrammar.Expansion.Choice` — choosing by a random number

A number `x` chooses among `n` items the one at `⌊x * n⌋`, where the
product is rounded to double precision first.  Outside the list nothing
is chosen, and a product that is no number or infinite has no floor.
-/
import TextGrammar.Number.Binary64

namespace TextGrammar.Choice

/-- Why a product has no floor. -/
inductive Fault where
  | notANumber
  | infinite
deriving DecidableEq, Repr

/-- The message for a fault. -/
def Fault.message : Fault → List Char
  | .notANumber => "cannot convert float NaN to integer".toList
  | .infinite => "cannot convert float infinity to integer".toList

/-- The place among `n` items that a number chooses, which may lie
outside. -/
def index (x : Binary64) (n : Nat) : Except Fault Int :=
  match x.mulNat n with
  | .nan => .error .notANumber
  | .infinity _ => .error .infinite
  | .finite s m e =>
    let (k, d) := Binary64.ratio (Binary64.signed s m) e
    .ok (Int.fdiv k d)

/-- The item at a place, if there is one. -/
def itemAt {α : Type} (items : List α) : Int → Option α
  | .ofNat i => items[i]?
  | .negSucc _ => none

/-- The item that a number chooses, if it chooses one. -/
def choose {α : Type} (x : Binary64) (items : List α) : Except Fault (Option α) :=
  (index x items.length).map (itemAt items)

/-- The text that a number chooses among candidates; empty if it chooses
none. -/
def candidate (x : Binary64) (candidates : List (List Char)) : List Char :=
  match choose x candidates with
  | .ok (some t) => t
  | _ => []

end TextGrammar.Choice
