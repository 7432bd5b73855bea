/-
# `TextGrammar.Proofs.Expansion.Agreement` — symbols that are never looked up

An expansion depends on a grammar through the symbols that it looks up, and
it looks up no others than those of a set that contains the references of
the origin and is closed under the references of candidates.  Rebinding does
not lead out of it: an action binds a value that stood in a text which was
reached, so that the references of the value count for that text already
(`mentions`).

Two grammars that agree on such a set are expanded in step with each other.
The states differ in their symbols alone (`State.withSymbols`), and so do
the results:

    expand_withSymbols    ∃ m, expand c g' origin source
                            = (expand c g origin source).withSymbols m

Grammars with the same look-ups agree on the set of all symbols
(`expand_of_get?_eq`).
-/
import TextGrammar.Proofs.Expansion.Choice
import TextGrammar.Proofs.Expansion.Move
import TextGrammar.Proofs.Grammar.Reachability

namespace TextGrammar.Expansion

open Reachability (mentions references)

variable {σ : Type} {c : Setting σ} {P : Text → Prop}

/-! ## Grammars -/

/-- The grammars have the same candidates for the symbols of a set, and these
candidates do not refer to others. -/
structure Agree (P : Text → Prop) (m m' : Grammar) : Prop where
  get?_eq : ∀ k, P k → m'.get? k = m.get? k
  closed : ∀ k, P k → ∀ candidates, m.get? k = some candidates →
    ∀ rule ∈ candidates, ∀ r ∈ references rule, P r

/-- Binding a symbol in both of them, whether it is in the set or not. -/
theorem Agree.insert {m m' : Grammar} (h : Agree P m m') (key : Text) {value : Text}
    (hv : ∀ r ∈ references value, P r) :
    Agree P (m.insert key [value]) (m'.insert key [value]) where
  get?_eq := by
    intro k hk
    rw [Assoc.get?_insert, Assoc.get?_insert, h.get?_eq k hk]
  closed := by
    intro k hk candidates hget rule hrule
    rw [Assoc.get?_insert] at hget
    split at hget
    · cases hget
      rw [List.mem_singleton.mp hrule]
      exact hv
    · exact h.closed k hk candidates hget rule hrule

theorem Agree.drawn {m m' : Grammar} (h : Agree P m m') {k : Text} {candidates : List Text}
    (hk : P k) (hget : m.get? k = some candidates) (x : Binary64) :
    ∀ r ∈ references (Choice.candidate x candidates), P r := by
  intro r hr
  rcases Choice.candidate_cases x candidates with hmem | hnil
  · exact h.closed k hk candidates hget _ hmem r hr
  · rw [hnil, Reachability.references_nil] at hr
    exact absurd hr List.not_mem_nil

/-! ## States -/

/-- The state with other bindings. -/
def State.withSymbols (s : State σ) (m : Grammar) : State σ :=
  { s with store := { s.store with symbols := m } }

/-- The result with other bindings. -/
def Result.withSymbols (r : Result σ) (m : Grammar) : Result σ :=
  { r with store := { r.store with symbols := m } }

/-- The tokens of a frame look up symbols of a set alone, now and when the
values they bind are expanded. -/
def Frame.Confined (P : Text → Prop) (f : Frame) : Prop := ∀ t ∈ f.pending, ∀ k ∈ mentions t, P k

theorem confined_ofText {text : Text} {names : List Text} (h : ∀ k ∈ references text, P k) :
    (Frame.ofText text names).Confined P := by
  intro t ht k hk
  apply h
  rw [Reachability.references_eq]
  exact List.mem_flatMap.mpr ⟨t, ht, hk⟩

theorem Frame.Confined.tail {t : Token} {ts : List Token} {ns : List Text} {out : Text}
    (h : Frame.Confined P ⟨t :: ts, ns, out⟩) (out' : Text) : Frame.Confined P ⟨ts, ns, out'⟩ :=
  fun t' ht' => h t' (List.mem_cons_of_mem t ht')

/-- A state goes along with the one that has other bindings. -/
structure Twins (P : Text → Prop) (s : State σ) (m : Grammar) : Prop where
  agree : Agree P s.store.symbols m
  frame : s.frame.Confined P
  waiting : ∀ f ∈ s.waiting, f.Confined P

theorem Twins.looked_up {s : State σ} {m : Grammar} {k : Text} {names : List Text}
    {rest : List Token} (h : Twins P s m) (hp : s.frame.pending = .rule k names :: rest) : P k :=
  h.frame (.rule k names) (hp ▸ List.mem_cons_self) k List.mem_cons_self

/-- What one state can do, the other can do too. -/
theorem Twins.move {s s' : State σ} {m : Grammar} (h : Twins P s m) (hm : Move c s s') :
    ∃ m', Move c (s.withSymbols m) (s'.withSymbols m') ∧ Twins P s' m' := by
  cases hm with
  | text => exact ⟨m, .text, h.agree, h.frame.tail _, h.waiting⟩
  | @action s k v =>
    have hv : ∀ r ∈ references v, P r := h.frame (.action k v) List.mem_cons_self
    exact ⟨m.insert k [v], .action, h.agree.insert k hv, h.frame.tail _, h.waiting⟩
  | unbound hk =>
    have hk' := (h.agree.get?_eq _ (h.looked_up rfl)).trans hk
    exact ⟨m, .unbound hk', h.agree, h.frame.tail _, h.waiting⟩
  | flat hk hd =>
    have hk' := (h.agree.get?_eq _ (h.looked_up rfl)).trans hk
    exact ⟨m, .flat hk' hd, h.agree, h.frame.tail _, h.waiting⟩
  | deeper hk hd =>
    have hP := h.looked_up rfl
    have hk' := (h.agree.get?_eq _ hP).trans hk
    refine ⟨m, .deeper hk' hd, h.agree, confined_ofText (h.agree.drawn hP hk _), ?_⟩
    intro f hf
    rcases List.mem_cons.mp hf with rfl | hf
    · exact h.frame.tail _
    · exact h.waiting f hf
  | @close s out ns f fs =>
    refine ⟨m, .close, h.agree, h.waiting f List.mem_cons_self, ?_⟩
    exact fun f' hf => h.waiting f' (List.mem_cons_of_mem f hf)

/-! ## Runs -/

theorem Twins.run {s : State σ} {m : Grammar} (h : Twins P s m) :
    ∃ m', (s.withSymbols m).run c = (s.run c).withSymbols m' := by
  fun_induction State.run c s generalizing m with
  | case1 s r hstep =>
    obtain ⟨hp, hw, rfl⟩ := step_eq_done_iff.mp hstep
    exact ⟨m, run_of_done (step_eq_done_iff.mpr ⟨hp, hw, rfl⟩)⟩
  | case2 s s' hstep ih =>
    obtain ⟨m', hm, h'⟩ := h.move (move_of_step hstep)
    obtain ⟨m'', hrun⟩ := ih h'
    exact ⟨m'', (run_of_move hm).trans hrun⟩

/-- Grammars that agree on what is looked up give results that differ in the
bindings alone. -/
theorem expand_withSymbols {g g' : Grammar} {origin : Text} (h : Agree P g g')
    (horigin : ∀ k ∈ references origin, P k) (c : Setting σ) (source : σ) :
    ∃ m, expand c g' origin source = (expand c g origin source).withSymbols m := by
  have hinit : Twins P (State.init g origin source) g' :=
    ⟨h, confined_ofText horigin, fun _ hf => absurd hf List.not_mem_nil⟩
  exact hinit.run

/-- How a grammar lists its symbols is not looked at. -/
theorem expand_of_get?_eq {g g' : Grammar} (h : ∀ k, g'.get? k = g.get? k) (c : Setting σ)
    (origin : Text) (source : σ) :
    ∃ m, expand c g' origin source = (expand c g origin source).withSymbols m := by
  have hagree : Agree (fun _ => True) g g' := by
    refine ⟨fun k _ => h k, ?_⟩
    intro k _ candidates _ rule _ r _
    exact trivial
  exact expand_withSymbols hagree (fun _ _ => trivial) c source

end TextGrammar.Expansion
