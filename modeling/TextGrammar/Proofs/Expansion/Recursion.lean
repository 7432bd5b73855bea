/-
# `TextGrammar.Proofs.Expansion.Recursion` — the stack is a continuation

The machine expands with a stack of frames, the recursion of
`TextGrammar.Expansion.Render` without one.  They give the same result on
every grammar, every origin, every registry and every source:

    expand_eq_render    expand c g origin source
                          = render c (Rule.tokens origin) (Store.init g source)

A result is the text with the store behind it, so that the draws, the source
they leave and the notices agree as well.  The source is any state machine;
one whose state lists the numbers it gave shows that they are drawn in the
same order.

The stack stands for what is left to do: the tokens of the innermost text,
its modifiers, the tokens of the text around it, and so on.  `State.value`
says this by recursion on the stack.  No step of the machine changes it, and
in the end it is the result.
-/
import TextGrammar.Expansion.Render
import TextGrammar.Proofs.Expansion.Move

namespace TextGrammar.Expansion

variable {σ : Type} (c : Setting σ)

/-! ## The recursion, token by token -/

/-- A text in front of a result. -/
def Result.prepend (t : Text) (r : Result σ) : Result σ := ⟨t ++ r.text, r.store⟩

@[simp] theorem Result.prepend_text (t : Text) (r : Result σ) : (r.prepend t).text = t ++ r.text := rfl

@[simp] theorem Result.prepend_store (t : Text) (r : Result σ) : (r.prepend t).store = r.store := rfl

theorem render_nil (s : Store σ) : render c [] s = ⟨[], s⟩ := by
  rw [render, renderFrom]

theorem render_text (v : Text) (ts : List Token) (s : Store σ) :
    render c (.text v :: ts) s = (render c ts s).prepend v := by
  rw [render, renderFrom]
  rfl

theorem render_action (k v : Text) (ts : List Token) (s : Store σ) :
    render c (.action k v :: ts) s = render c ts (s.bind k v) := by
  rw [render, renderFrom]
  rfl

theorem render_unbound {k : Text} {names : List Text} {s : Store σ}
    (h : s.symbols.get? k = none) (ts : List Token) :
    render c (.rule k names :: ts) s = (render c ts s).prepend (Token.reference k names) := by
  rw [render, renderFrom]
  split
  · rfl
  · next candidates hk =>
    rw [h] at hk
    cases hk

theorem render_below {k : Text} {names candidates : List Text} {s : Store σ}
    (h : s.symbols.get? k = some candidates) (hd : s.depth < ceiling) (ts : List Token) :
    render c (.rule k names :: ts) s =
      let (chosen, deeper) := s.pick c.draw k candidates
      let inner := render c (Rule.tokens chosen) deeper
      (render c ts inner.store).prepend (c.modifiers.apply inner.text names) := by
  rw [render, renderFrom]
  split
  · next hk =>
    rw [h] at hk
    cases hk
  · next candidates' hk =>
    rw [h] at hk
    cases hk
    rw [if_pos hd]
    rfl

theorem render_at_ceiling {k : Text} {names candidates : List Text} {s : Store σ}
    (h : s.symbols.get? k = some candidates) (hd : ¬ s.depth < ceiling) (ts : List Token) :
    render c (.rule k names :: ts) s =
      let (chosen, deeper) := s.pick c.draw k candidates
      (render c ts deeper).prepend (c.modifiers.apply chosen names) := by
  rw [render, renderFrom]
  split
  · next hk =>
    rw [h] at hk
    cases hk
  · next candidates' hk =>
    rw [h] at hk
    cases hk
    rw [if_neg hd]
    rfl

/-! ## What a stack stands for -/

/-- The result once the tokens of the innermost text have been rendered to
`r`, behind the output it already has: the modifiers of that text are
applied, and the frame around it goes on with what they give. -/
def resume (r : Result σ) (output : Text) (names : List Text) : List Frame → Result σ
  | [] => ⟨c.modifiers.apply (output ++ r.text) names, r.store⟩
  | f :: waiting =>
    resume (render c f.pending r.store) (f.output ++ c.modifiers.apply (output ++ r.text) names)
      f.modifiers waiting

/-- What a state stands for. -/
def State.value (s : State σ) : Result σ :=
  resume c (render c s.frame.pending s.store) s.frame.output s.frame.modifiers s.waiting

/-- Text in front of what is still to be rendered is output already there. -/
theorem resume_prepend (t : Text) (r : Result σ) (output : Text) (names : List Text)
    (waiting : List Frame) :
    resume c (r.prepend t) output names waiting = resume c r (output ++ t) names waiting := by
  cases waiting with
  | nil => simp only [resume, Result.prepend_text, Result.prepend_store, List.append_assoc]
  | cons f waiting => simp only [resume, Result.prepend_text, Result.prepend_store, List.append_assoc]

/-! ## Steps keep it -/

variable {c}

/-- No move changes what the state stands for.  The frame that a candidate is
expanded in is the recursion into that candidate, and the end of a text hands
its output to where the recursion has it. -/
theorem value_of_move {s s' : State σ} (h : Move c s s') : s'.value c = s.value c := by
  cases h with
  | text => simp only [State.value, render_text, resume_prepend]
  | action => simp only [State.value, render_action]
  | unbound hk => simp only [State.value, render_unbound c hk, resume_prepend]
  | deeper hk hd =>
    simp only [State.value, render_below c hk hd, resume_prepend, resume, Frame.ofText,
      List.nil_append]
  | flat hk hd => simp only [State.value, render_at_ceiling c hk hd, resume_prepend]
  | close => simp only [State.value, render_nil, resume, List.append_nil, Frame.emit]

theorem value_of_done {s : State σ} {r : Result σ} (h : s.step c = .done r) : s.value c = r := by
  obtain ⟨hp, hw, rfl⟩ := step_eq_done_iff.mp h
  rw [State.value, hp, hw, render_nil, resume, List.append_nil]

theorem run_eq_value (s : State σ) : s.run c = s.value c := by
  fun_induction State.run c s with
  | case1 s r hstep => exact (value_of_done hstep).symm
  | case2 s s' hstep ih => exact ih.trans (value_of_move (move_of_step hstep))

/-- **The machine refines the recursion.** -/
theorem expand_eq_render (c : Setting σ) (g : Grammar) (origin : Text) (source : σ) :
    expand c g origin source = render c (Rule.tokens origin) (Store.init g source) := by
  rw [expand, run_eq_value]
  simp only [State.value, State.init, Frame.ofText, resume, List.nil_append, Registry.apply,
    List.foldl_nil]

end TextGrammar.Expansion
