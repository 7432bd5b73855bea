/-
# `TextGrammar.Grammar.Basic` — grammars, and what an origin can reach

A grammar gives each of its symbols a list of candidates, each of which
is a rule.

From the symbols an origin refers to, the search goes on to those their
candidates refer to, and so on, whether in a reference or in the value of
an action.  Symbols wait in a queue; whether one was seen before is looked
up when it leaves the queue, so that it may wait there more than once.

The search ends on every grammar: a symbol that is seen for the first
time leaves fewer to be seen, and otherwise the queue gets shorter.
-/
import TextGrammar.Assoc
import TextGrammar.Rule.Walk

namespace TextGrammar

/-- The candidates of each symbol. -/
abbrev Grammar := Assoc Text (List Text)

namespace Grammar

/-- The number of candidates of all symbols. -/
def ruleCount (g : Grammar) : Nat := g.foldr (fun (_, candidates) n => candidates.length + n) 0

/-- A line on the size of a grammar. -/
def summary (g : Grammar) : Text :=
  "OK: ".toList ++ Text.ofNat g.length ++ " symbols, ".toList ++ Text.ofNat g.ruleCount
    ++ " rules".toList

end Grammar

end TextGrammar

namespace TextGrammar.Reachability

/-! ## The search -/

/-- The symbols that a rule refers to, also within the values of its
actions. -/
def references (rule : Text) : List Text :=
  (Rule.walkTokens rule).filterMap fun
    | .rule key _ => some key
    | _ => none

/-- The number of symbols that were not seen yet. -/
def unseen (g : Grammar) (seen : List Text) : Nat := g.keys.countP fun k => !seen.contains k

theorem mem_keys_of_get? {g : Grammar} {k : Text} {v : List Text} (h : g.get? k = some v) :
    k ∈ g.keys := by
  induction g with
  | nil => simp [Assoc.get?] at h
  | cons e rest ih =>
    obtain ⟨k', a⟩ := e
    simp only [Assoc.get?] at h
    split at h
    · next hk => simp [Assoc.keys, eq_of_beq hk]
    · simpa [Assoc.keys] using Or.inr (by simpa [Assoc.keys] using ih h)

/-- To see a fresh symbol of the grammar leaves fewer. -/
theorem unseen_cons_lt {g : Grammar} {seen : List Text} {k : Text} (hk : k ∈ g.keys)
    (hs : seen.contains k = false) : unseen g (k :: seen) < unseen g seen := by
  unfold unseen
  generalize g.keys = ks at hk
  induction ks with
  | nil => simp at hk
  | cons x xs ih =>
    have hle : ∀ ys : List Text, ys.countP (fun k' => !(k :: seen).contains k') ≤
        ys.countP fun k' => !seen.contains k' := by
      intro ys
      apply List.countP_mono_left
      intro y _
      simp only [List.contains_cons, Bool.not_or, Bool.and_eq_true]
      exact And.right
    by_cases hx : x = k
    · subst hx
      have := hle xs
      rw [List.countP_cons_of_neg (by simp), List.countP_cons_of_pos (by simpa using hs)]
      omega
    · have hlt := ih (by simpa [Ne.symm hx] using hk)
      simp only [List.countP_cons, List.contains_cons, beq_eq_false_iff_ne.2 hx, Bool.false_or]
      simp only [List.contains_cons] at hlt
      omega

/-- The symbols seen when the queue has been worked off, if `refs` lists
what a rule refers to. -/
def explore (refs : Text → List Text) (g : Grammar) (seen : List Text) : List Text → List Text
  | [] => seen
  | k :: queue =>
    if _hs : seen.contains k then explore refs g seen queue
    else match _hg : g.get? k with
      | none => explore refs g seen queue
      | some candidates =>
        let fresh := (candidates.flatMap refs).filter fun r => !(k :: seen).contains r
        explore refs g (k :: seen) (queue ++ fresh)
termination_by queue => (unseen g seen, queue.length)
decreasing_by
  · exact Prod.Lex.right _ (Nat.lt_succ_self _)
  · exact Prod.Lex.right _ (Nat.lt_succ_self _)
  · exact Prod.Lex.left _ _ (unseen_cons_lt (mem_keys_of_get? _hg) (by simpa using _hs))

/-- The symbols of a grammar that an origin can reach. -/
def reachable (g : Grammar) (origin : Text) : List Text :=
  explore references g [] (references origin)

end TextGrammar.Reachability
