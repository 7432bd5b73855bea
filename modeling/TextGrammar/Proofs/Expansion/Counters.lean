/-
# `TextGrammar.Proofs.Expansion.Counters` — what an expansion counts, and that it ends

A store counts levels and draws, a state has its frames, and the notices say
whether the ceiling was reached.  Throughout a run these go in step
(`InStep`): a draw is a level, a level below the ceiling is a text that is cut
into tokens, and frames are texts that have not ended.

How many draws there are depends on the references that are read.  Each is a
token of a text that was opened, no more than `ceiling` texts are opened, and
but for the origin each of them is a candidate or a value that an action binds
(`expandable`).  Actions rewrite the grammar, but only with such values, for
values have no actions.  Hence the main statement:

    reached_inStep_and_done    every state of a run is in step and within the
                               budget, and the run comes to its result

That a run ends is `State.less_step`: the levels below the ceiling lessen, or
the tokens left in the frames do.
-/
import TextGrammar.Proofs.Assoc
import TextGrammar.Proofs.Expansion.Choice
import TextGrammar.Proofs.Expansion.Move
import TextGrammar.Proofs.Rule.Walk

namespace TextGrammar.Expansion

variable {σ : Type} {c : Setting σ} {g : Grammar} {origin : Text} {source : σ}

/-! ## States of a run -/

/-- The frames of a state, the innermost first. -/
def State.stack (s : State σ) : List Frame := s.frame :: s.waiting

/-- The texts that a step opens: as many as there are new frames. -/
def openings (s s' : State σ) : Nat := s'.stack.length - s.stack.length

theorem openings_eq_zero {s s' : State σ} (h : s'.stack.length ≤ s.stack.length) :
    openings s s' = 0 := Nat.sub_eq_zero_of_le h

theorem openings_eq_one {s s' : State σ} (h : s'.stack.length = s.stack.length + 1) :
    openings s s' = 1 := by
  rw [openings, h, Nat.add_sub_cancel_left]

/-- The states of a run, with the steps that lead there and the texts opened
so far. -/
inductive Reached (c : Setting σ) (g : Grammar) (origin : Text) (source : σ) :
    Nat → Nat → State σ → Prop
  | start : Reached c g origin source 0 1 (.init g origin source)
  | step {n texts : Nat} {s s' : State σ} :
      Reached c g origin source n texts s → s.step c = .more s' →
      Reached c g origin source (n + 1) (texts + openings s s') s'

/-- A run comes to its result. -/
theorem exists_done {n texts : Nat} {s : State σ} (h : Reached c g origin source n texts s) :
    ∃ n' texts' s', Reached c g origin source n' texts' s' ∧ s'.step c = .done (s.run c) := by
  fun_induction State.run c s generalizing n texts with
  | case1 s r hstep => exact ⟨n, texts, s, h, hstep⟩
  | case2 s s' hstep ih => exact ih (h.step hstep)

/-! ## Counters -/

/-- What the counters of a store have to do with each other. -/
structure Store.Counted (c : Setting σ) (source : σ) (s : Store σ) : Prop where
  depth_eq : s.depth = 1 + s.draws
  source_eq : s.source = Source.advance c.draw s.draws source
  notices_length : s.notices.length = if ceiling < s.depth then 1 else 0

/-- The counters of a state, the texts opened and the frames go in step. -/
structure InStep (c : Setting σ) (source : σ) (texts : Nat) (s : State σ) : Prop where
  counted : s.store.Counted c source
  texts_eq : texts = min s.store.depth ceiling
  stack_pos : 1 ≤ s.stack.length
  stack_le : s.stack.length ≤ texts

theorem inStep_init : InStep c source 1 (State.init g origin source) where
  counted := ⟨rfl, rfl, rfl⟩
  texts_eq := rfl
  stack_pos := Nat.le_refl 1
  stack_le := Nat.le_refl 1

theorem advance_succ (draw : Source σ) :
    ∀ (n : Nat) (x : σ), Source.advance draw (n + 1) x = (draw (Source.advance draw n x)).2
  | 0, _ => rfl
  | n + 1, x => advance_succ draw n (draw x).2

/-- A draw counts once everywhere, and the one that passes the ceiling is
noticed. -/
theorem Store.Counted.pick {s : Store σ} (h : s.Counted c source) (key : Text)
    (candidates : List Text) : (s.pick c.draw key candidates).2.Counted c source where
  depth_eq := congrArg (· + 1) h.depth_eq
  source_eq := by
    show (c.draw s.source).2 = Source.advance c.draw (s.draws + 1) source
    rw [advance_succ, ← h.source_eq]
  notices_length := by
    show (if s.depth = ceiling then s.notices ++ [⟨key⟩] else s.notices).length =
      if ceiling < s.depth + 1 then 1 else 0
    have hlen := h.notices_length
    split
    · next hd =>
      rw [if_neg (by omega)] at hlen
      rw [if_pos (by omega), List.length_append, hlen, List.length_singleton]
    · next hd =>
      rw [hlen]
      by_cases hlt : ceiling < s.depth
      · rw [if_pos hlt, if_pos (by omega)]
      · rw [if_neg hlt, if_neg (by omega)]

/-- Where no frame is new, no text is opened. -/
theorem InStep.of_stack_le {texts : Nat} {s s' : State σ} (h : InStep c source texts s)
    (hcounted : s'.store.Counted c source)
    (hdepth : min s'.store.depth ceiling = min s.store.depth ceiling)
    (hle : s'.stack.length ≤ s.stack.length) :
    InStep c source (texts + openings s s') s' := by
  rw [openings_eq_zero hle, Nat.add_zero]
  exact ⟨hcounted, h.texts_eq.trans hdepth.symm, Nat.succ_pos _, Nat.le_trans hle h.stack_le⟩

theorem InStep.move {texts : Nat} {s s' : State σ} (h : InStep c source texts s)
    (hm : Move c s s') : InStep c source (texts + openings s s') s' := by
  cases hm with
  | text => exact h.of_stack_le h.counted rfl (Nat.le_refl _)
  | action => exact h.of_stack_le ⟨h.counted.1, h.counted.2, h.counted.3⟩ rfl (Nat.le_refl _)
  | unbound hk => exact h.of_stack_le h.counted rfl (Nat.le_refl _)
  | @flat s key out names ns candidates ts fs hk hd =>
    refine h.of_stack_le (h.counted.pick key candidates) ?_ (Nat.le_refl _)
    show min (s.depth + 1) ceiling = min s.depth ceiling
    omega
  | @deeper s key out names ns candidates ts fs hk hd =>
    have htexts : texts = min s.depth ceiling := h.texts_eq
    have hle : fs.length + 1 ≤ texts := h.stack_le
    rw [openings_eq_one rfl]
    refine ⟨h.counted.pick key candidates, ?_, Nat.succ_pos _, Nat.succ_le_succ hle⟩
    show texts + 1 = min (s.depth + 1) ceiling
    omega
  | close => exact h.of_stack_le h.counted rfl (Nat.le_succ _)

theorem inStep_of_reached {n texts : Nat} {s : State σ}
    (h : Reached c g origin source n texts s) : InStep c source texts s := by
  induction h with
  | start => exact inStep_init
  | step _ hstep ih => exact ih.move (move_of_step hstep)

/-! ## The budget of draws -/

/-- Whether a token is a reference. -/
def isReference : Token → Bool
  | .rule _ _ => true
  | _ => false

/-- How many of the tokens are references. -/
def countReferences (ts : List Token) : Nat := ts.countP isReference

/-- The values that the actions of a text bind. -/
def boundValues (t : Text) : List Text :=
  (Rule.tokens t).filterMap fun
    | .action _ value => some value
    | _ => none

/-- The texts that may be expanded behind the origin: the candidates, and the
values that actions of the origin and of candidates bind. -/
def expandable (g : Grammar) (origin : Text) : List Text :=
  let candidates := g.flatMap (·.2)
  candidates ++ (origin :: candidates).flatMap boundValues

/-- The most references that one of these texts has. -/
def maxReferences (g : Grammar) (origin : Text) : Nat :=
  (expandable g origin).foldr (fun t n => Nat.max (countReferences (Rule.tokens t)) n) 0

theorem countReferences_cons (t : Token) (ts : List Token) :
    countReferences (t :: ts) = countReferences ts + (isReference t).toNat := by
  rw [countReferences, List.countP_cons]
  cases isReference t <;> rfl

theorem mem_boundValues_iff {t value : Text} :
    value ∈ boundValues t ↔ ∃ key, .action key value ∈ Rule.tokens t := by
  rw [boundValues, List.mem_filterMap]
  constructor
  · rintro ⟨token, htoken, hvalue⟩
    cases token with
    | action key v =>
      cases hvalue
      exact ⟨key, htoken⟩
    | _ => cases hvalue
  · rintro ⟨key, hkey⟩
    exact ⟨_, hkey, rfl⟩

theorem countReferences_le_maxReferences {t : Text} (h : t ∈ expandable g origin) :
    countReferences (Rule.tokens t) ≤ maxReferences g origin := by
  rw [maxReferences]
  generalize expandable g origin = ts at h
  induction ts with
  | nil => exact absurd h List.not_mem_nil
  | cons t' ts ih =>
    rcases List.mem_cons.mp h with rfl | h
    · exact Nat.le_max_left _ _
    · exact Nat.le_trans (ih h) (Nat.le_max_right _ _)

/-- The values bound in an expandable text are expandable: they are those of a
candidate, for a value binds none. -/
theorem boundValues_subset {t : Text} (h : t ∈ origin :: expandable g origin) :
    boundValues t ⊆ expandable g origin := by
  intro value hvalue
  rw [expandable]
  rcases List.mem_cons.mp h with rfl | h
  · exact List.mem_append_right _ (List.mem_flatMap.mpr ⟨t, List.mem_cons_self, hvalue⟩)
  rcases List.mem_append.mp h with h | h
  · exact List.mem_append_right _
      (List.mem_flatMap.mpr ⟨t, List.mem_cons_of_mem origin h, hvalue⟩)
  · obtain ⟨t', -, ht'⟩ := List.mem_flatMap.mp h
    obtain ⟨key', hkey'⟩ := mem_boundValues_iff.mp ht'
    obtain ⟨key, hkey⟩ := mem_boundValues_iff.mp hvalue
    rw [Rule.mem_tokens_iff] at hkey' hkey
    exact absurd hkey (Rule.action_not_mem_events_value hkey')

/-- The references that frames have left. -/
def referencesLeft (fs : List Frame) : Nat := fs.foldr (fun f n => countReferences f.pending + n) 0

/-- The actions that a frame has left bind expandable values. -/
def Frame.Binds (g : Grammar) (origin : Text) (f : Frame) : Prop :=
  ∀ key value, .action key value ∈ f.pending → value ∈ expandable g origin

/-- What may still be expanded is expandable, and the draws are those of
references in texts that were opened. -/
structure InBudget (g : Grammar) (origin : Text) (texts : Nat) (s : State σ) : Prop where
  symbols : ∀ key candidates, s.store.symbols.get? key = some candidates →
    candidates ⊆ expandable g origin
  binds : ∀ f ∈ s.stack, f.Binds g origin
  draws_le : s.store.draws + referencesLeft s.stack ≤
    countReferences (Rule.tokens origin) + (texts - 1) * maxReferences g origin

theorem binds_ofText {t : Text} (names : List Text) (h : t = [] ∨ t ∈ origin :: expandable g origin) :
    (Frame.ofText t names).Binds g origin := by
  intro key value hmem
  rcases h with rfl | h
  · rw [Frame.ofText, Rule.tokens_nil] at hmem
    exact absurd hmem List.not_mem_nil
  · exact boundValues_subset h (mem_boundValues_iff.mpr ⟨key, hmem⟩)

theorem Frame.Binds.tail {t : Token} {ts : List Token} {ns : List Text} {out : Text}
    (h : Frame.Binds g origin ⟨t :: ts, ns, out⟩) (out' : Text) :
    Frame.Binds g origin ⟨ts, ns, out'⟩ :=
  fun key value hmem => h key value (List.mem_cons_of_mem t hmem)

theorem inBudget_init : InBudget g origin 1 (State.init g origin source) where
  symbols := by
    intro key candidates hget t ht
    exact List.mem_append_left _ (List.mem_flatMap.mpr ⟨_, Assoc.mem_of_get? hget, ht⟩)
  binds := by
    intro f hf
    rw [List.mem_singleton.mp hf]
    exact binds_ofText [] (.inr List.mem_cons_self)
  draws_le := by
    show 0 + (countReferences (Rule.tokens origin) + 0) ≤ _ + 0 * _
    omega

/-- A text that is drawn is expandable, or empty because nothing was chosen. -/
theorem InBudget.drawn {texts : Nat} {s : State σ} (h : InBudget g origin texts s) {key : Text}
    {candidates : List Text} (hk : s.store.symbols.get? key = some candidates) :
    let t := (s.store.pick c.draw key candidates).1
    t = [] ∨ t ∈ expandable g origin := by
  rcases Choice.candidate_cases (c.draw s.store.source).1 candidates with hmem | hnil
  · exact .inr (h.symbols key candidates hk hmem)
  · exact .inl hnil

theorem countReferences_drawn {t : Text} (h : t = [] ∨ t ∈ expandable g origin) :
    countReferences (Rule.tokens t) ≤ maxReferences g origin := by
  rcases h with rfl | h
  · rw [Rule.tokens_nil]
    exact Nat.zero_le _
  · exact countReferences_le_maxReferences h

/-- Where no text is opened, a draw takes a reference from what is left. -/
theorem InBudget.of_stack_le {texts : Nat} {s s' : State σ} (h : InBudget g origin texts s)
    (hsymbols : ∀ key candidates, s'.store.symbols.get? key = some candidates →
      candidates ⊆ expandable g origin)
    (hbinds : ∀ f ∈ s'.stack, f.Binds g origin) (hle : s'.stack.length ≤ s.stack.length)
    (hdraws : s'.store.draws + referencesLeft s'.stack ≤
      s.store.draws + referencesLeft s.stack) :
    InBudget g origin (texts + openings s s') s' := by
  rw [openings_eq_zero hle, Nat.add_zero]
  exact ⟨hsymbols, hbinds, Nat.le_trans hdraws h.draws_le⟩

/-- A token that is read binds what it may, and is a draw at most if it is a
reference. -/
theorem InBudget.read {texts : Nat} {s s' : Store σ} {t : Token} {ts : List Token}
    {ns : List Text} {out out' : Text} {fs : List Frame}
    (h : InBudget g origin texts ⟨s, ⟨t :: ts, ns, out⟩, fs⟩)
    (hsymbols : ∀ key candidates, s'.symbols.get? key = some candidates →
      candidates ⊆ expandable g origin)
    (hdraws : s'.draws ≤ s.draws + (isReference t).toNat) :
    InBudget g origin (texts + openings ⟨s, ⟨t :: ts, ns, out⟩, fs⟩ ⟨s', ⟨ts, ns, out'⟩, fs⟩)
      ⟨s', ⟨ts, ns, out'⟩, fs⟩ := by
  obtain ⟨hframe, hwaiting⟩ := List.forall_mem_cons.mp h.binds
  refine h.of_stack_le hsymbols (List.forall_mem_cons.mpr ⟨hframe.tail _, hwaiting⟩)
    (Nat.le_refl _) ?_
  show s'.draws + (countReferences ts + referencesLeft fs) ≤
    s.draws + (countReferences (t :: ts) + referencesLeft fs)
  rw [countReferences_cons]
  omega

theorem InBudget.move {texts : Nat} {s s' : State σ} (h : InBudget g origin texts s)
    (hpos : 1 ≤ texts) (hm : Move c s s') :
    InBudget g origin (texts + openings s s') s' := by
  obtain ⟨hframe, hwaiting⟩ := List.forall_mem_cons.mp h.binds
  cases hm with
  | text => exact h.read h.symbols (Nat.le_refl _)
  | @action s k v out ts ns fs =>
    refine h.read ?_ (Nat.le_refl _)
    intro key candidates hget
    have hget : (s.symbols.insert k [v]).get? key = some candidates := hget
    rw [Assoc.get?_insert] at hget
    split at hget
    · cases hget
      intro t ht
      rw [List.mem_singleton.mp ht]
      exact hframe k v List.mem_cons_self
    · exact h.symbols key candidates hget
  | unbound => exact h.read h.symbols (Nat.le_add_right _ _)
  | flat => exact h.read h.symbols (Nat.le_refl _)
  | @deeper s k out names ns candidates ts fs hk hd =>
    have hdrawn := h.drawn (c := c) hk
    have hcount := countReferences_drawn hdrawn
    rw [openings_eq_one rfl]
    refine ⟨h.symbols, ?_, ?_⟩
    · refine List.forall_mem_cons.mpr ⟨binds_ofText names ?_, ?_⟩
      · exact hdrawn.imp_right (List.mem_cons_of_mem origin)
      · exact List.forall_mem_cons.mpr ⟨hframe.tail _, hwaiting⟩
    · have hdraws : s.draws + (countReferences (.rule k names :: ts) + referencesLeft fs) ≤
          countReferences (Rule.tokens origin) + (texts - 1) * maxReferences g origin := h.draws_le
      rw [countReferences_cons, isReference, Bool.toNat_true] at hdraws
      show s.draws + 1 + (countReferences (Rule.tokens (s.pick c.draw k candidates).1) +
          (countReferences ts + referencesLeft fs)) ≤
        countReferences (Rule.tokens origin) + (texts + 1 - 1) * maxReferences g origin
      have hmul : (texts + 1 - 1) * maxReferences g origin =
          (texts - 1) * maxReferences g origin + maxReferences g origin := by
        rw [← Nat.succ_mul]
        congr 1
        omega
      have hcount : countReferences (Rule.tokens (s.pick c.draw k candidates).1) ≤
        maxReferences g origin := hcount
      omega
  | @close s out ns f fs =>
    obtain ⟨hf, hfs⟩ := List.forall_mem_cons.mp hwaiting
    refine h.of_stack_le h.symbols (List.forall_mem_cons.mpr ⟨hf, hfs⟩) (Nat.le_succ _) ?_
    show s.draws + (countReferences f.pending + referencesLeft fs) ≤
      s.draws + (countReferences [] + (countReferences f.pending + referencesLeft fs))
    omega

theorem inBudget_of_reached {n texts : Nat} {s : State σ}
    (h : Reached c g origin source n texts s) : InBudget g origin texts s := by
  induction h with
  | start => exact inBudget_init
  | step hreached hstep ih =>
    have hin := inStep_of_reached hreached
    exact ih.move (Nat.le_trans hin.stack_pos hin.stack_le) (move_of_step hstep)

/-- Every state of a run keeps within the budget. -/
theorem draws_le_of_reached {n texts : Nat} {s : State σ}
    (h : Reached c g origin source n texts s) :
    s.store.draws ≤ countReferences (Rule.tokens origin) + (ceiling - 1) * maxReferences g origin := by
  have hbudget := (inBudget_of_reached h).draws_le
  have htexts : texts ≤ ceiling := by
    rw [(inStep_of_reached h).texts_eq]
    exact Nat.min_le_right _ _
  have hmul := Nat.mul_le_mul_right (maxReferences g origin) (Nat.sub_le_sub_right htexts 1)
  omega

/-! ## Runs -/

theorem stack_le_ceiling_of_reached {n texts : Nat} {s : State σ}
    (h : Reached c g origin source n texts s) : s.stack.length ≤ ceiling := by
  obtain ⟨-, htexts, -, hle⟩ := inStep_of_reached h
  rw [htexts] at hle
  exact Nat.le_trans hle (Nat.min_le_right _ _)

/-- The result has the store of the last state. -/
theorem exists_reached_done (c : Setting σ) (g : Grammar) (origin : Text) (source : σ) :
    ∃ n texts s, Reached c g origin source n texts s ∧
      s.step c = .done (expand c g origin source) ∧ (expand c g origin source).store = s.store := by
  have hstart : Reached c g origin source 0 1 (State.init g origin source) := .start
  obtain ⟨n, texts, s, h, hdone⟩ := exists_done hstart
  obtain ⟨-, -, hresult⟩ := step_eq_done_iff.mp hdone
  exact ⟨n, texts, s, h, hdone, congrArg Result.store hresult⟩

theorem counted_expand (c : Setting σ) (g : Grammar) (origin : Text) (source : σ) :
    (expand c g origin source).store.Counted c source := by
  obtain ⟨n, texts, s, h, -, hstore⟩ := exists_reached_done c g origin source
  rw [hstore]
  exact (inStep_of_reached h).counted

/-- **Every run ends, and its counters go in step until then.**  Any number of
steps leads to a state in which levels, draws, texts, frames and notices agree
and the draws keep within the budget of references; and some number of steps
leads to the result. -/
theorem reached_inStep_and_done (c : Setting σ) (g : Grammar) (origin : Text) (source : σ) :
    (∀ n texts s, Reached c g origin source n texts s →
      InStep c source texts s ∧ s.stack.length ≤ ceiling ∧
        s.store.draws ≤ countReferences (Rule.tokens origin) +
          (ceiling - 1) * maxReferences g origin) ∧
    ∃ n texts s, Reached c g origin source n texts s ∧
      s.step c = .done (expand c g origin source) ∧
      (expand c g origin source).store.draws ≤ countReferences (Rule.tokens origin) +
        (ceiling - 1) * maxReferences g origin := by
  refine ⟨fun n texts s h => ?_, ?_⟩
  · exact ⟨inStep_of_reached h, stack_le_ceiling_of_reached h, draws_le_of_reached h⟩
  · obtain ⟨n, texts, s, h, hdone, hstore⟩ := exists_reached_done c g origin source
    refine ⟨n, texts, s, h, hdone, ?_⟩
    rw [hstore]
    exact draws_le_of_reached h

end TextGrammar.Expansion
