/-
# `TextGrammar.Proofs.Expansion.Draws` — a source is its draws

An expansion looks at its source through draws alone, and it counts them.  So
two sources, of whatever kind, that give the same first numbers are one and
the same for every expansion that draws no more of them.  The states of the
two runs differ in the source they hold (`State.withSource`), and each of them
makes the moves of the other as long as the numbers last:

    expand_withSource       the results differ in the source behind them

Expansions one after the other share a source and nothing else.  Where one of
them begins is told by how many draws were made before it:

    getElem?_expandAll      each is an expansion on its own, from the source
                            advanced by the draws of those before it
-/
import TextGrammar.Proofs.Expansion.Counters

namespace TextGrammar

theorem Source.advance_add {σ : Type} (draw : Source σ) :
    ∀ (m n : Nat) (x : σ),
      Source.advance draw (m + n) x = Source.advance draw n (Source.advance draw m x)
  | 0, n, x => by rw [Nat.zero_add]; rfl
  | m + 1, n, x => by
    rw [Nat.succ_add]
    exact Source.advance_add draw m n (draw x).2

namespace Expansion

variable {σ τ : Type} {c : Setting σ} {c' : Setting τ}

/-! ## States with another source -/

/-- The store with another source. -/
def Store.withSource (s : Store σ) (y : τ) : Store τ :=
  ⟨s.symbols, s.depth, s.draws, y, s.notices⟩

/-- The state with another source. -/
def State.withSource (s : State σ) (y : τ) : State τ := ⟨s.store.withSource y, s.frame, s.waiting⟩

/-- The result with another source. -/
def Result.withSource (r : Result σ) (y : τ) : Result τ := ⟨r.text, r.store.withSource y⟩

/-- The sources still give the same numbers, up to `n` draws of the run. -/
def SameNumbers (c : Setting σ) (c' : Setting τ) (n : Nat) (s : State σ) (y : τ) : Prop :=
  Source.take c.draw (n - s.store.draws) s.store.source =
    Source.take c'.draw (n - s.store.draws) y

theorem Store.withSource_pick {s : Store σ} {y : τ} (h : (c'.draw y).1 = (c.draw s.source).1)
    (key : Text) (candidates : List Text) :
    (s.withSource y).pick c'.draw key candidates =
      ((s.pick c.draw key candidates).1,
        (s.pick c.draw key candidates).2.withSource (c'.draw y).2) := by
  simp only [Store.pick, Store.withSource, h]
  rfl

/-- While there are draws left, the next number is the same, and so are those
behind it. -/
theorem sameNumbers_succ {n : Nat} {s s' : State σ} {y : τ} (h : SameNumbers c c' n s y)
    (hdraws : s'.store.draws = s.store.draws + 1)
    (hsource : s'.store.source = (c.draw s.store.source).2) (hn : s'.store.draws ≤ n) :
    (c'.draw y).1 = (c.draw s.store.source).1 ∧ SameNumbers c c' n s' (c'.draw y).2 := by
  have hleft : n - s.store.draws = (n - s'.store.draws) + 1 := by omega
  rw [SameNumbers, hleft] at h
  obtain ⟨hhead, htail⟩ := List.cons.inj h
  refine ⟨hhead.symm, ?_⟩
  rw [SameNumbers, hsource]
  exact htail

/-! ## Runs go in step -/

theorem draws_le_of_move {s s' : State σ} (hm : Move c s s') :
    s.store.draws ≤ s'.store.draws := by
  cases hm with
  | deeper => exact Nat.le_succ _
  | flat => exact Nat.le_succ _
  | text | action | unbound | close => exact Nat.le_refl _

theorem draws_le_run (s : State σ) : s.store.draws ≤ (s.run c).store.draws := by
  fun_induction State.run c s with
  | case1 s r hstep =>
    obtain ⟨-, -, rfl⟩ := step_eq_done_iff.mp hstep
    exact Nat.le_refl _
  | case2 s s' hstep ih => exact Nat.le_trans (draws_le_of_move (move_of_step hstep)) ih

/-- A move can be made on the other source too, which is drawn from where the
given one is. -/
theorem Move.withSource {s s' : State σ} (hm : Move c s s')
    (hmods : c'.modifiers = c.modifiers) {n : Nat} (hn : s'.store.draws ≤ n) {y : τ}
    (hy : SameNumbers c c' n s y) :
    ∃ y', Move c' (s.withSource y) (s'.withSource y') ∧ SameNumbers c c' n s' y' := by
  cases hm with
  | text => exact ⟨y, .text, hy⟩
  | action => exact ⟨y, .action, hy⟩
  | unbound hk => exact ⟨y, .unbound hk, hy⟩
  | @deeper s k out names ns candidates ts fs hk hd =>
    obtain ⟨hnumber, hrest⟩ := sameNumbers_succ hy rfl rfl hn
    have hmove : Move c' (State.withSource ⟨s, ⟨.rule k names :: ts, ns, out⟩, fs⟩ y) _ :=
      .deeper hk hd
    rw [Store.withSource_pick hnumber] at hmove
    exact ⟨(c'.draw y).2, hmove, hrest⟩
  | @flat s k out names ns candidates ts fs hk hd =>
    obtain ⟨hnumber, hrest⟩ := sameNumbers_succ hy rfl rfl hn
    have hmove : Move c' (State.withSource ⟨s, ⟨.rule k names :: ts, ns, out⟩, fs⟩ y) _ :=
      .flat hk hd
    rw [Store.withSource_pick hnumber, hmods] at hmove
    exact ⟨(c'.draw y).2, hmove, hrest⟩
  | @close s out ns f fs =>
    have hmove : Move c' (State.withSource ⟨s, ⟨[], ns, out⟩, f :: fs⟩ y) _ := .close
    rw [hmods] at hmove
    exact ⟨y, hmove, hy⟩

theorem run_withSource (hmods : c'.modifiers = c.modifiers) {s : State σ} {y : τ}
    (hy : SameNumbers c c' (s.run c).store.draws s y) :
    ∃ y', (s.withSource y).run c' = (s.run c).withSource y' := by
  fun_induction State.run c s generalizing y with
  | case1 s r hstep =>
    obtain ⟨hp, hw, rfl⟩ := step_eq_done_iff.mp hstep
    refine ⟨y, run_of_done (step_eq_done_iff.mpr ⟨hp, hw, ?_⟩)⟩
    rw [hmods]
    rfl
  | case2 s s' hstep ih =>
    obtain ⟨y', hm, hy'⟩ := (move_of_step hstep).withSource hmods (draws_le_run s') hy
    obtain ⟨y'', hrun⟩ := ih hy'
    exact ⟨y'', (run_of_move hm).trans hrun⟩

/-- Sources that agree on the numbers drawn give results that differ in the
source alone. -/
theorem expand_withSource (hmods : c'.modifiers = c.modifiers) {g : Grammar} {origin : Text}
    {source : σ} {source' : τ}
    (h : Source.take c.draw (expand c g origin source).store.draws source =
      Source.take c'.draw (expand c g origin source).store.draws source') :
    ∃ y, expand c' g origin source' = (expand c g origin source).withSource y := by
  have hsame : SameNumbers c c' ((State.init g origin source).run c).store.draws
      (State.init g origin source) source' := h
  exact run_withSource hmods hsame

/-! ## One after the other -/

/-- The draws of expansions, taken together. -/
def drawsOf (rs : List (Result σ)) : Nat := rs.foldr (fun r n => r.store.draws + n) 0

/-- Each of several expansions is one on its own, from where the draws of those
before it have left the source. -/
theorem getElem?_expandAll (c : Setting σ) (calls : List (Grammar × Text)) (source : σ)
    (i : Nat) :
    (expandAll c calls source)[i]? = calls[i]?.map fun call =>
      expand c call.1 call.2
        (Source.advance c.draw (drawsOf ((expandAll c calls source).take i)) source) := by
  induction calls generalizing source i with
  | nil => rfl
  | cons call calls ih =>
    cases i with
    | zero => rfl
    | succ i =>
      have hsource : (expand c call.1 call.2 source).store.source =
          Source.advance c.draw (expand c call.1 call.2 source).store.draws source :=
        (counted_expand c call.1 call.2 source).source_eq
      rw [expandAll, List.getElem?_cons_succ, List.getElem?_cons_succ, List.take_succ_cons,
        ih, drawsOf, drawsOf, List.foldr_cons, Source.advance_add, ← hsource]

theorem take_expandAll (c : Setting σ) (n : Nat) (calls : List (Grammar × Text)) (source : σ) :
    (expandAll c calls source).take n = expandAll c (calls.take n) source := by
  induction calls generalizing source n with
  | nil => rw [expandAll, List.take_nil, List.take_nil, expandAll]
  | cons call calls ih =>
    cases n with
    | zero => rfl
    | succ n =>
      rw [expandAll, List.take_succ_cons, List.take_succ_cons, expandAll, ih]

theorem length_expandAll (c : Setting σ) (calls : List (Grammar × Text)) (source : σ) :
    (expandAll c calls source).length = calls.length := by
  induction calls generalizing source with
  | nil => rfl
  | cons call calls ih => rw [expandAll, List.length_cons, List.length_cons, ih]

end Expansion

end TextGrammar
