/-
# `TextGrammar.Proofs.Expansion.Move` — everything a step can do

`State.step` is a function with cases inside cases.  `Move` lists what comes
out of it, one rule for each way to go on, with the states written out:

    text      plain text is added to the output
    action    a symbol is bound
    unbound   a reference to an unbound symbol is added as it is written
    deeper    a candidate is drawn, and its tokens come first
    flat      a candidate is drawn at the ceiling, and added as it is
    close     a text has ended, and its output goes to the text around it

`step_eq_more_iff` and `step_eq_done_iff` say that this is all.  What holds
of every state of an expansion is shown by going through these rules.
-/
import TextGrammar.Expansion.Machine

namespace TextGrammar.Expansion

variable {σ : Type} {c : Setting σ}

/-- One way to go on. -/
inductive Move (c : Setting σ) : State σ → State σ → Prop
  | text {s : Store σ} {v out : Text} {ts : List Token} {ns : List Text} {fs : List Frame} :
      Move c ⟨s, ⟨.text v :: ts, ns, out⟩, fs⟩ ⟨s, ⟨ts, ns, out ++ v⟩, fs⟩
  | action {s : Store σ} {k v out : Text} {ts : List Token} {ns : List Text} {fs : List Frame} :
      Move c ⟨s, ⟨.action k v :: ts, ns, out⟩, fs⟩ ⟨s.bind k v, ⟨ts, ns, out⟩, fs⟩
  | unbound {s : Store σ} {k out : Text} {names ns : List Text} {ts : List Token}
      {fs : List Frame} :
      s.symbols.get? k = none →
      Move c ⟨s, ⟨.rule k names :: ts, ns, out⟩, fs⟩
        ⟨s, ⟨ts, ns, out ++ Token.reference k names⟩, fs⟩
  | deeper {s : Store σ} {k out : Text} {names ns candidates : List Text} {ts : List Token}
      {fs : List Frame} :
      s.symbols.get? k = some candidates → s.depth < ceiling →
      Move c ⟨s, ⟨.rule k names :: ts, ns, out⟩, fs⟩
        ⟨(s.pick c.draw k candidates).2,
          .ofText (s.pick c.draw k candidates).1 names, ⟨ts, ns, out⟩ :: fs⟩
  | flat {s : Store σ} {k out : Text} {names ns candidates : List Text} {ts : List Token}
      {fs : List Frame} :
      s.symbols.get? k = some candidates → ¬ s.depth < ceiling →
      Move c ⟨s, ⟨.rule k names :: ts, ns, out⟩, fs⟩
        ⟨(s.pick c.draw k candidates).2,
          ⟨ts, ns, out ++ c.modifiers.apply (s.pick c.draw k candidates).1 names⟩, fs⟩
  | close {s : Store σ} {out : Text} {ns : List Text} {f : Frame} {fs : List Frame} :
      Move c ⟨s, ⟨[], ns, out⟩, f :: fs⟩ ⟨s, f.emit (c.modifiers.apply out ns), fs⟩

theorem move_of_step {s s' : State σ} (h : s.step c = .more s') : Move c s s' := by
  obtain ⟨store, ⟨pending, ns, out⟩, fs⟩ := s
  cases pending with
  | nil =>
    cases fs with
    | nil => cases h
    | cons f fs =>
      cases h
      exact .close
  | cons t ts =>
    cases t with
    | text v =>
      cases h
      exact .text
    | action k v =>
      cases h
      exact .action
    | rule k names =>
      simp only [State.step, State.read, State.Progress.more.injEq] at h
      cases hk : store.symbols.get? k with
      | none =>
        simp only [hk] at h
        subst h
        exact .unbound hk
      | some candidates =>
        simp only [hk, State.refer] at h
        by_cases hd : store.depth < ceiling
        · rw [if_pos hd] at h
          subst h
          exact .deeper hk hd
        · rw [if_neg hd] at h
          subst h
          exact .flat hk hd

theorem step_of_move {s s' : State σ} (h : Move c s s') : s.step c = .more s' := by
  cases h with
  | text => rfl
  | action => rfl
  | unbound hk => simp only [State.step, State.read, hk, Frame.emit]
  | deeper hk hd => simp only [State.step, State.read, hk, State.refer, if_pos hd]
  | flat hk hd => simp only [State.step, State.read, hk, State.refer, if_neg hd, Frame.emit]
  | close => rfl

theorem step_eq_more_iff {s s' : State σ} : s.step c = .more s' ↔ Move c s s' :=
  ⟨move_of_step, step_of_move⟩

/-- An expansion is done at the end of the outermost text. -/
theorem step_eq_done_iff {s : State σ} {r : Result σ} :
    s.step c = .done r ↔ s.frame.pending = [] ∧ s.waiting = [] ∧
      r = ⟨c.modifiers.apply s.frame.output s.frame.modifiers, s.store⟩ := by
  obtain ⟨store, ⟨pending, ns, out⟩, fs⟩ := s
  cases pending with
  | nil =>
    cases fs with
    | nil =>
      simp only [State.step, State.close, State.Progress.done.injEq, true_and]
      exact eq_comm
    | cons f fs => simp [State.step, State.close]
  | cons t ts => simp [State.step]

/-! ## Runs -/

theorem run_of_done {s : State σ} {r : Result σ} (h : s.step c = .done r) : s.run c = r := by
  rw [State.run]
  split
  · next r' h' => exact State.Progress.done.inj (h'.symm.trans h)
  · next s' h' => cases h'.symm.trans h

theorem run_of_move {s s' : State σ} (h : Move c s s') : s.run c = s'.run c := by
  rw [State.run]
  split
  · next r h' => cases h'.symm.trans (step_of_move h)
  · next s'' h' => rw [State.Progress.more.inj (h'.symm.trans (step_of_move h))]

end TextGrammar.Expansion
