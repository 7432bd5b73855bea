/-
# `TextGrammar.Proofs.Grammar.Reachability` — the search leaves nothing out

`explore` works off a queue.  At every moment a symbol that it has to find
was seen, waits in the queue, or is not in the grammar at all
(`Accounted`), and when the queue is empty only the first and the last are
left.  The main statements are that the search finds what the origin refers
to, and with a symbol what its candidates refer to, as far as the grammar
has it:

    mem_reachable_of_references    from the origin
    mem_reachable_of_candidate     from a symbol that was found

What leads on from a rule is said token by token (`references_eq`).
-/
import TextGrammar.Grammar.Basic
import TextGrammar.Proofs.Rule.Walk

namespace TextGrammar.Reachability

/-! ## What a rule refers to -/

/-- The symbols that a token refers to, at once or in the value it binds. -/
def mentions : Token → List Text
  | .text _ => []
  | .rule key _ => [key]
  | .action _ value => references value

/-- A rule refers to what its tokens refer to. -/
theorem references_eq (rule : Text) : references rule = (Rule.tokens rule).flatMap mentions := by
  rw [references, Rule.walkTokens, Rule.walk_eq_flatMap, List.filterMap_flatMap,
    List.filterMap_flatMap, Rule.tokens]
  induction Rule.events rule with
  | nil => rfl
  | cons e es ih =>
    rw [List.flatMap_cons, ih]
    cases e with
    | drop kind span => rfl
    | token t => cases t <;> rfl

theorem references_nil : references [] = [] := by
  rw [references_eq, Rule.tokens_nil]
  rfl

/-! ## The queue -/

/-- A symbol was seen, or waits, or is not there to be found. -/
def Accounted (g : Grammar) (seen queue : List Text) (k : Text) : Prop :=
  k ∈ seen ∨ k ∈ queue ∨ g.get? k = none

/-- What the candidates of the symbols seen refer to is accounted for. -/
def Closed (refs : Text → List Text) (g : Grammar) (seen queue : List Text) : Prop :=
  ∀ k ∈ seen, ∀ candidates, g.get? k = some candidates →
    ∀ r ∈ candidates.flatMap refs, Accounted g seen queue r

variable {refs : Text → List Text} {g : Grammar} {seen queue : List Text} {k : Text}

theorem Accounted.skip {r : Text} (h : Accounted g seen (k :: queue) r)
    (hk : k ∈ seen ∨ g.get? k = none) : Accounted g seen queue r := by
  rcases h with h | h | h
  · exact .inl h
  · rcases List.mem_cons.mp h with rfl | h
    · exact hk.imp_right .inr
    · exact .inr (.inl h)
  · exact .inr (.inr h)

theorem Accounted.visit {r : Text} (h : Accounted g seen (k :: queue) r) (fresh : List Text) :
    Accounted g (k :: seen) (queue ++ fresh) r := by
  rcases h with h | h | h
  · exact .inl (List.mem_cons_of_mem k h)
  · rcases List.mem_cons.mp h with rfl | h
    · exact .inl List.mem_cons_self
    · exact .inr (.inl (List.mem_append_left fresh h))
  · exact .inr (.inr h)

theorem Closed.skip (h : Closed refs g seen (k :: queue)) (hk : k ∈ seen ∨ g.get? k = none) :
    Closed refs g seen queue :=
  fun k' hk' candidates hg r hr => (h k' hk' candidates hg r hr).skip hk

theorem Closed.visit {candidates : List Text} (h : Closed refs g seen (k :: queue))
    (hk : g.get? k = some candidates) :
    Closed refs g (k :: seen)
      (queue ++ (candidates.flatMap refs).filter fun r => !(k :: seen).contains r) := by
  intro k' hk' candidates' hg r hr
  rcases List.mem_cons.mp hk' with rfl | hk'
  · -- the symbol itself: what it refers to was seen or joins the queue
    rw [hk, Option.some.injEq] at hg
    by_cases hs : r ∈ k' :: seen
    · exact .inl hs
    · refine .inr (.inl (List.mem_append_right queue (List.mem_filter.mpr ⟨hg ▸ hr, ?_⟩)))
      rw [Bool.not_eq_true', ← Bool.not_eq_true, List.contains_iff_mem]
      exact hs
  · exact (h k' hk' candidates' hg r hr).visit _

theorem accounted_explore {r : Text} (h : Accounted g seen queue r) :
    Accounted g (explore refs g seen queue) [] r := by
  fun_induction explore refs g seen queue with
  | case1 => exact h
  | case2 seen k queue hs ih => exact ih (h.skip (.inl (List.contains_iff_mem.mp hs)))
  | case3 seen k queue _ hg ih => exact ih (h.skip (.inr hg))
  | case4 seen k queue _ candidates _ fresh ih => exact ih (h.visit fresh)

theorem closed_explore (h : Closed refs g seen queue) :
    Closed refs g (explore refs g seen queue) [] := by
  fun_induction explore refs g seen queue with
  | case1 => exact h
  | case2 seen k queue hs ih => exact ih (h.skip (.inl (List.contains_iff_mem.mp hs)))
  | case3 seen k queue _ hg ih => exact ih (h.skip (.inr hg))
  | case4 seen k queue _ candidates hg fresh ih => exact ih (h.visit hg)

/-- The search stays in every set that it starts in and that references do
not lead out of. -/
theorem forall_mem_explore {Q : Text → Prop}
    (hQ : ∀ k, Q k → ∀ candidates, g.get? k = some candidates →
      ∀ r ∈ candidates.flatMap refs, Q r)
    (hseen : ∀ k ∈ seen, Q k) (hqueue : ∀ k ∈ queue, Q k) :
    ∀ k ∈ explore refs g seen queue, Q k := by
  fun_induction explore refs g seen queue with
  | case1 => exact hseen
  | case2 seen k queue _ ih => exact ih hseen fun r hr => hqueue r (List.mem_cons_of_mem k hr)
  | case3 seen k queue _ _ ih => exact ih hseen fun r hr => hqueue r (List.mem_cons_of_mem k hr)
  | case4 seen k queue _ candidates hg fresh ih =>
    have hk : Q k := hqueue k List.mem_cons_self
    refine ih ?_ ?_
    · intro r hr
      rcases List.mem_cons.mp hr with rfl | hr
      · exact hk
      · exact hseen r hr
    · intro r hr
      rcases List.mem_append.mp hr with hr | hr
      · exact hqueue r (List.mem_cons_of_mem k hr)
      · exact hQ k hk candidates hg r (List.mem_filter.mp hr).1

/-! ## What the origin reaches -/

theorem Accounted.mem_or_unbound (h : Accounted g seen [] k) : k ∈ seen ∨ g.get? k = none := by
  rcases h with h | h | h
  · exact .inl h
  · exact absurd h List.not_mem_nil
  · exact .inr h

theorem mem_reachable_of_references {origin : Text} (h : k ∈ references origin) :
    k ∈ reachable g origin ∨ g.get? k = none := by
  have hstart : Accounted g [] (references origin) k := .inr (.inl h)
  exact (accounted_explore hstart).mem_or_unbound

theorem mem_reachable_of_candidate {origin rule r : Text} {candidates : List Text}
    (hk : k ∈ reachable g origin) (hg : g.get? k = some candidates) (hrule : rule ∈ candidates)
    (hr : r ∈ references rule) : r ∈ reachable g origin ∨ g.get? r = none := by
  have hstart : Closed references g [] (references origin) :=
    fun _ h => absurd h List.not_mem_nil
  have hmem : r ∈ candidates.flatMap references := List.mem_flatMap.mpr ⟨rule, hrule, hr⟩
  exact (closed_explore hstart k hk candidates hg r hmem).mem_or_unbound

/-- What is reached depends on the look-ups alone. -/
theorem mem_reachable_of_get?_eq {g' : Grammar} (h : ∀ k, g'.get? k = g.get? k) {origin : Text}
    (hk : k ∈ reachable g origin) : k ∈ reachable g' origin ∨ g'.get? k = none := by
  refine forall_mem_explore (Q := fun k => k ∈ reachable g' origin ∨ g'.get? k = none) ?_ ?_ ?_
    k hk
  · intro k hk candidates hget r hr
    rw [← h] at hget
    obtain ⟨rule, hrule, hr⟩ := List.mem_flatMap.mp hr
    rcases hk with hk | hk
    · exact mem_reachable_of_candidate hk hget hrule hr
    · rw [hk] at hget
      cases hget
  · intro k hk
    exact absurd hk List.not_mem_nil
  · intro k hk
    exact mem_reachable_of_references hk

end TextGrammar.Reachability
