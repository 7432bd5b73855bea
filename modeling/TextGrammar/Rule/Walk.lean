/-
# `TextGrammar.Rule.Walk` — the events of a rule and of its bound values

The value that an action binds is a rule of its own.  `Rule.walk` lists
the events of a rule and behind each action those of its value; the value
is shorter than the rule (`length_of_mem_events`), so that the walk ends.
-/
import TextGrammar.Rule.Scan

namespace TextGrammar

namespace Scan

theorem size_of_stepSpan (reading : Reading) (closer : Char) (event : Text → Event)
    (c : Cursor) : (stepSpan reading closer event c).2.cursor.text = c.text := by
  unfold stepSpan
  split
  · unfold rewind
    simp only
    split <;> rfl
  · next x c' hc =>
    rw [Cursor.eq_of_take hc]
    split <;> rfl

/-- A move leaves the text as it is. -/
theorem text_of_step {s : Scan} {r : Option Event × Scan} (h : s.step = some r) :
    r.2.cursor.text = s.cursor.text := by
  obtain ⟨reading, c⟩ := s
  cases reading <;> simp only [step, Option.some.injEq] at h
  · unfold stepBetween at h
    split at h
    · simp at h
    · next x c' hc =>
      simp only [Option.some.injEq] at h
      subst h
      rw [Cursor.eq_of_take hc]
      split <;> (try split) <;> rfl
  · subst h; exact size_of_stepSpan _ _ _ c
  · subst h; exact size_of_stepSpan _ _ _ c
  · subst h
    unfold stepText
    split
    · rfl
    · next x c' hc =>
      rw [Cursor.eq_of_take hc]
      split <;> rfl

/-- Text that is cut is no action. -/
theorem cutText_ne_action {c : Cursor} {k v : Text} :
    (cutText c).1 ≠ some (.token (.action k v)) := by
  simp [cutText]

theorem rewind_ne_action {c : Cursor} {k v : Text} :
    (rewind c).1 ≠ some (.token (.action k v)) := by
  unfold rewind
  simp only
  split
  · exact cutText_ne_action
  · simp

/-- An action that a move completes binds a value shorter than the text. -/
theorem length_of_step {s : Scan} {r : Option Event × Scan} {k v : Text} (h : s.step = some r)
    (he : r.1 = some (.token (.action k v))) : v.length < s.cursor.text.size := by
  obtain ⟨reading, c⟩ := s
  cases reading <;> simp only [step, Option.some.injEq] at h
  · unfold stepBetween at h
    split at h
    · simp at h
    · simp only [Option.some.injEq] at h
      subst h
      simp at he
  · subst h
    unfold stepSpan at he
    split at he
    · exact absurd he rewind_ne_action
    · split at he
      · simp only [Option.some.injEq] at he
        exact absurd he ruleEvent_ne_action
      · simp at he
  · subst h
    unfold stepSpan at he
    split at he
    · exact absurd he rewind_ne_action
    · next x c' hc =>
      split at he
      · simp only [Option.some.injEq] at he
        have hv := length_of_actionEvent he
        have hp := c'.length_pending_le
        have ht := congrArg Cursor.text (Cursor.eq_of_take hc)
        simp only at ht
        simp only [Cursor.cut] at hv
        rw [ht] at hp
        exact Nat.lt_of_lt_of_le hv hp
      · simp at he
  · subst h
    unfold stepText at he
    split at he
    · exact absurd he cutText_ne_action
    · split at he
      · exact absurd he cutText_ne_action
      · simp at he

theorem length_of_mem_events {s : Scan} {k v : Text} (h : .token (.action k v) ∈ s.events) :
    v.length < s.cursor.text.size := by
  fun_induction events s with
  | case1 s hs => simp at h
  | case2 s e? s' hs ih =>
    rcases List.mem_append.1 h with h | h
    · exact length_of_step hs (by simpa using h)
    · have := ih h
      rwa [text_of_step hs] at this

end Scan

namespace Rule

/-- The value of an action is shorter than the rule it stands in. -/
theorem length_of_mem_events {rule k v : Text} (h : .token (.action k v) ∈ events rule) :
    v.length < rule.length := by
  simpa [Scan.ofRule, Cursor.ofText] using Scan.length_of_mem_events h

/-- The events of a rule, and behind each action those of its value. -/
def walk (rule : Text) : List Event :=
  (events rule).attach.flatMap fun ⟨e, h⟩ =>
    match e, h with
    | .token (.action key value), _h => .token (.action key value) :: walk value
    | e, _ => [e]
termination_by rule.length
decreasing_by exact length_of_mem_events _h

/-- The tokens of a rule and of the values its actions bind. -/
def walkTokens (rule : Text) : List Token := (walk rule).filterMap Event.token?

end Rule

end TextGrammar
