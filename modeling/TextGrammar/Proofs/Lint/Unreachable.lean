/-
# `TextGrammar.Proofs.Lint.Unreachable` — what is called unreachable can go

It is safe to remove the symbols that a report calls unreachable, or to give
them other candidates, for no expansion of that origin looks them up.  An
action may bind such a symbol, and a reference behind the action then finds
the value; but to refer to it is to reach it.  The main statement takes any
number of changes at once:

    expand_eq_of_unreachable    grammars that differ in symbols called
                                unreachable alone are expanded alike
-/
import TextGrammar.Proofs.Assoc
import TextGrammar.Proofs.Expansion.Agreement
import TextGrammar.Proofs.Lint.Report

namespace TextGrammar.Lint

open Expansion Reachability

variable {g g' : Grammar} {origin : Text} {modifiers : Option Registry} {file : Option Text}

theorem not_callsUnreachable {k : Text} (h : k ∈ reachable g origin ∨ g.get? k = none) :
    ¬ CallsUnreachable g origin modifiers file k := by
  intro hcalls
  obtain ⟨hkeys, hreach⟩ := callsUnreachable_iff.mp hcalls
  rcases h with h | h
  · exact hreach h
  · exact Assoc.get?_eq_none_iff.mp h hkeys

theorem mem_reachable_of_not_calls {k : Text} {candidates : List Text}
    (h : ¬ CallsUnreachable g origin modifiers file k) (hk : g.get? k = some candidates) :
    k ∈ reachable g origin := by
  refine Decidable.byContradiction fun hreach => h (callsUnreachable_iff.mpr ⟨?_, hreach⟩)
  exact mem_keys_of_get? hk

/-- The other symbols are closed under references. -/
theorem agree_of_unreachable
    (h : ∀ k, ¬ CallsUnreachable g origin modifiers file k → g'.get? k = g.get? k) :
    Agree (fun k => ¬ CallsUnreachable g origin modifiers file k) g g' where
  get?_eq := h
  closed := by
    intro k hk candidates hget rule hrule r hr
    have hreach : k ∈ reachable g origin := mem_reachable_of_not_calls hk hget
    exact not_callsUnreachable (mem_reachable_of_candidate hreach hget hrule hr)

/-- **Unreachable symbols do not interfere.**  If another grammar has the same
candidates for every symbol that is not called unreachable, whatever it has
for those that are, then the origin is expanded to the same text, with the
same draws and the same notices. -/
theorem expand_eq_of_unreachable {σ : Type}
    (h : ∀ k, ¬ CallsUnreachable g origin modifiers file k → g'.get? k = g.get? k)
    (c : Setting σ) (source : σ) :
    let r := expand c g origin source
    let r' := expand c g' origin source
    r'.text = r.text ∧ r'.store.draws = r.store.draws ∧ r'.store.source = r.store.source ∧
      r'.store.notices = r.store.notices := by
  have horigin : ∀ k ∈ references origin, ¬ CallsUnreachable g origin modifiers file k :=
    fun k hk => not_callsUnreachable (mem_reachable_of_references hk)
  obtain ⟨m, hm⟩ := expand_withSymbols (agree_of_unreachable h) horigin c source
  intro r r'
  have hr' : r' = r.withSymbols m := hm
  rw [hr']
  exact ⟨rfl, rfl, rfl, rfl⟩

/-- A grammar of which `#a#` reaches `a` alone: an action binds `b`, but
nothing refers to it. -/
def binding : Grammar :=
  [("a".toList, ["[b:hi]ho".toList]), ("b".toList, ["#c#".toList]), ("c".toList, ["ha".toList])]

/-- The same without `b`, and with another candidate for `c`. -/
def pruned : Grammar := [("a".toList, ["[b:hi]ho".toList]), ("c".toList, ["#a#".toList])]

theorem expand_pruned :
    (∀ k, ¬ CallsUnreachable binding "#a#".toList none none k →
      pruned.get? k = binding.get? k) ∧
    let c : Setting Unit := ⟨.english, fun u => (.finite false 0 0, u)⟩
    let r := expand c binding "#a#".toList ()
    let r' := expand c pruned "#a#".toList ()
    r'.text = r.text ∧ r'.store.draws = r.store.draws ∧ r'.store.source = r.store.source ∧
      r'.store.notices = r.store.notices := by
  have horigin : Rule.tokens "#a#".toList = [.rule "a".toList []] := by
    simp [Rule.tokens_eq_split, Rule.split, Rule.splitFirst, Rule.splitSpan]
    rfl
  have hcandidate : Rule.tokens "[b:hi]ho".toList =
      [.action "b".toList "hi".toList, .text "ho".toList] := by
    simp [Rule.tokens_eq_split, Rule.split, Rule.splitFirst, Rule.splitSpan, Rule.isPlain, isOpener]
    rfl
  have hvalue : Rule.tokens "hi".toList = [.text "hi".toList] := by
    simp [Rule.tokens_eq_split, Rule.split, Rule.splitFirst, Rule.isPlain, isOpener]
    rfl
  have hreach : ∀ k ∈ reachable binding "#a#".toList, k = "a".toList := by
    refine forall_mem_explore ?_ (fun k hk => absurd hk List.not_mem_nil) ?_
    · rintro k rfl candidates hget r hr
      obtain rfl : ["[b:hi]ho".toList] = candidates := Option.some.inj hget
      simp only [List.flatMap_cons, List.flatMap_nil, List.append_nil, references_eq, hcandidate,
        hvalue, mentions, List.not_mem_nil] at hr
    · intro k hk
      rw [references_eq, horigin] at hk
      exact List.mem_singleton.mp hk
  have h : ∀ k, ¬ CallsUnreachable binding "#a#".toList none none k →
      pruned.get? k = binding.get? k := by
    intro k hk
    rw [callsUnreachable_iff] at hk
    by_cases ha : k = "a".toList
    · rw [ha]
      rfl
    · have hkeys : k ∉ binding.keys := fun hmem => hk ⟨hmem, fun hr => ha (hreach k hr)⟩
      have hsub : pruned.keys ⊆ binding.keys := ((List.sublist_cons_self _ _).cons_cons _).subset
      have hkeys' : k ∉ pruned.keys := fun hmem => hkeys (hsub hmem)
      rw [Assoc.get?_eq_none_iff.mpr hkeys, Assoc.get?_eq_none_iff.mpr hkeys']
  exact ⟨h, expand_eq_of_unreachable h _ ()⟩

end TextGrammar.Lint
