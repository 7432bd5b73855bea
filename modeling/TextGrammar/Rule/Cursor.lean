/-
# `TextGrammar.Rule.Cursor` — a scan position with one checkpoint

A cursor walks over a text.  `start` is where the next cut begins, `pos`
is the scan position and `saved` is one place to come back to.  A cut
claims the characters from `start` to `pos`; coming back moves `pos`
alone, so that what was not claimed is still there for the next cut.
-/
import TextGrammar.Text.Basic

namespace TextGrammar

/-- A scan position in a text. -/
structure Cursor where
  text : Array Char
  start : Nat
  pos : Nat
  saved : Nat
deriving DecidableEq, Repr

namespace Cursor

/-- The cursor at the front of a text. -/
def ofText (t : Text) : Cursor := ⟨t.toArray, 0, 0, 0⟩

/-- Whether no character is left. -/
def isExhausted (c : Cursor) : Bool := c.text.size ≤ c.pos

/-- The character at the scan position. -/
def peek (c : Cursor) : Option Char := c.text[c.pos]?

/-- The character at the scan position and the cursor behind it. -/
def take (c : Cursor) : Option (Char × Cursor) :=
  c.peek.map fun x => (x, { c with pos := c.pos + 1 })

/-- The characters that the next cut claims. -/
def pending (c : Cursor) : Text := (c.text.extract c.start c.pos).toList

/-- Claims the pending characters. -/
def cut (c : Cursor) : Text × Cursor := (c.pending, { c with start := c.pos })

/-- Sets the checkpoint here. -/
def save (c : Cursor) : Cursor := { c with saved := c.pos }

/-- Goes to the checkpoint; what was pending from `start` on stays so. -/
def backtrack (c : Cursor) : Cursor := { c with pos := c.saved }

/-! ## Single operations -/

/-- The operations of a cursor. -/
inductive Op where
  | isExhausted
  | take
  | peek
  | cut
  | save
  | backtrack
deriving DecidableEq, Repr

/-- What an operation answers. -/
inductive Answer where
  | flag (b : Bool)
  | char (c : Char)
  | text (t : Text)
  | nothing
  | outOfText
deriving DecidableEq, Repr

/-- Carries out one operation.  Reading at the end fails and changes
nothing. -/
def run (c : Cursor) : Op → Answer × Cursor
  | .isExhausted => (.flag c.isExhausted, c)
  | .take => match c.take with
    | some (x, c') => (.char x, c')
    | none => (.outOfText, c)
  | .peek => match c.peek with
    | some x => (.char x, c)
    | none => (.outOfText, c)
  | .cut => (.text c.cut.1, c.cut.2)
  | .save => (.nothing, c.save)
  | .backtrack => (.nothing, c.backtrack)

/-- Carries out operations in order: each answer with the cursor after
it. -/
def runAll (c : Cursor) : List Op → List (Answer × Cursor)
  | [] => []
  | op :: ops => c.run op :: runAll (c.run op).2 ops

theorem length_pending_le (c : Cursor) : c.pending.length ≤ c.text.size := by
  simp only [pending, Array.length_toList, Array.size_extract]
  omega

theorem pos_lt_of_take {c c' : Cursor} {x : Char} (h : c.take = some (x, c')) :
    c.pos < c.text.size := by
  simp only [take, peek, Option.map_eq_some_iff] at h
  obtain ⟨_, h, _⟩ := h
  exact (Array.getElem?_eq_some_iff.1 h).1

theorem eq_of_take {c c' : Cursor} {x : Char} (h : c.take = some (x, c')) :
    c' = { c with pos := c.pos + 1 } := by
  simp only [take, Option.map_eq_some_iff, Prod.mk.injEq] at h
  obtain ⟨_, _, _, h⟩ := h
  exact h.symm

end Cursor

end TextGrammar
