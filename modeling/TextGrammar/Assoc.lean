/-
# `TextGrammar.Assoc` — finite maps in insertion order

A map is the list of its entries, oldest first.  A key that is inserted
again keeps its place and takes the new value; a fresh key goes to the
end.  Keys are compared with `==`, so that a key type whose equality
joins different spellings can be used as well.
-/

namespace TextGrammar

/-- A finite map, as its entries in the order of first insertion. -/
abbrev Assoc (κ α : Type) := List (κ × α)

namespace Assoc

variable {κ α : Type} [BEq κ]

/-- The value at a key. -/
def get? : Assoc κ α → κ → Option α
  | [], _ => none
  | (k', a) :: rest, k => if k == k' then some a else get? rest k

/-- Whether the key has a value. -/
def contains (m : Assoc κ α) (k : κ) : Bool := (get? m k).isSome

/-- Gives `k` the value `a`.  An equal key that is there already stays
as it is written and where it is. -/
def insert : Assoc κ α → κ → α → Assoc κ α
  | [], k, a => [(k, a)]
  | (k', a') :: rest, k, a =>
    if k == k' then (k', a) :: rest else (k', a') :: insert rest k a

/-- The keys in insertion order. -/
def keys (m : Assoc κ α) : List κ := m.map (·.1)

/-- The map that results from inserting the entries from left to right. -/
def ofEntries (entries : List (κ × α)) : Assoc κ α :=
  entries.foldl (fun m e => insert m e.1 e.2) []

theorem get?_insert [LawfulBEq κ] (m : Assoc κ α) (k k' : κ) (a : α) :
    get? (insert m k a) k' = if k' == k then some a else get? m k' := by
  induction m with
  | nil => simp [insert, get?]
  | cons e rest ih =>
    obtain ⟨k₀, a₀⟩ := e
    by_cases h : k = k₀
    · subst h
      simp only [insert, BEq.rfl, ↓reduceIte, get?]
      split <;> rfl
    · by_cases h' : k' = k₀
      · subst h'
        simp [insert, get?, h, Ne.symm h]
      · simp [insert, get?, h, h', ih]

end Assoc

end TextGrammar
