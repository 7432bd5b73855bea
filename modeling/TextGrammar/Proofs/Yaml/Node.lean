/-
# `TextGrammar.Proofs.Yaml.Node` — nodes compared

Two nodes are equal if their lines, their tags and what is in them are, which
can be decided along the nodes.  So what a given text is read as can be found
by evaluation (`eq_ok_of_toOption`).
-/
import TextGrammar.Yaml.Node

namespace TextGrammar.Yaml

mutual

/-- Whether two nodes are equal. -/
def Node.decEq : (m n : Node) → Decidable (m = n)
  | .scalar l g t, .scalar l' g' t' => decidable_of_iff (l = l' ∧ g = g' ∧ t = t') (by simp)
  | .sequence l g ms, .sequence l' g' ns =>
    have := Node.decEqItems ms ns
    decidable_of_iff (l = l' ∧ g = g' ∧ ms = ns) (by simp)
  | .mapping l g ms, .mapping l' g' ns =>
    have := Node.decEqPairs ms ns
    decidable_of_iff (l = l' ∧ g = g' ∧ ms = ns) (by simp)
  | .scalar _ _ _, .sequence _ _ _ => isFalse nofun
  | .scalar _ _ _, .mapping _ _ _ => isFalse nofun
  | .sequence _ _ _, .scalar _ _ _ => isFalse nofun
  | .sequence _ _ _, .mapping _ _ _ => isFalse nofun
  | .mapping _ _ _, .scalar _ _ _ => isFalse nofun
  | .mapping _ _ _, .sequence _ _ _ => isFalse nofun

/-- Whether the items of two sequences are equal. -/
def Node.decEqItems : (ms ns : List Node) → Decidable (ms = ns)
  | [], [] => isTrue rfl
  | [], _ :: _ => isFalse nofun
  | _ :: _, [] => isFalse nofun
  | m :: ms, n :: ns =>
    have := Node.decEq m n
    have := Node.decEqItems ms ns
    decidable_of_iff (m = n ∧ ms = ns) (by simp)

/-- Whether the pairs of two mappings are equal. -/
def Node.decEqPairs : (ms ns : List (Node × Node)) → Decidable (ms = ns)
  | [], [] => isTrue rfl
  | [], _ :: _ => isFalse nofun
  | _ :: _, [] => isFalse nofun
  | (k, v) :: ms, (k', v') :: ns =>
    have := Node.decEq k k'
    have := Node.decEq v v'
    have := Node.decEqPairs ms ns
    decidable_of_iff (k = k' ∧ v = v' ∧ ms = ns) (by simp [and_assoc])

end

instance : DecidableEq Node := Node.decEq

theorem eq_ok_of_toOption {ε α : Type} {r : Except ε α} {a : α} (h : r.toOption = some a) :
    r = .ok a := by
  cases r with
  | error e => cases h
  | ok b => exact congrArg Except.ok (Option.some.inj h)

end TextGrammar.Yaml
