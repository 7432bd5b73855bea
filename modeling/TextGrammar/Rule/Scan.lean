/-
# `TextGrammar.Rule.Scan` — cutting a rule into events

A scan is a cursor and what is being read.  Between two events it takes
one character: `#` starts a reference and `[` an action, both read to
their closer, and anything else starts text, which is read to the next
opener.  Without a closer the scan goes back to just behind the opener
and reads it as text.

`Scan.step` is one such move and `Scan.events` all of them; every move
lessens `Scan.measure`, so that the scan of every rule ends.
-/
import TextGrammar.Rule.Token
import TextGrammar.Rule.Cursor

namespace TextGrammar

/-- What a scan is reading. -/
inductive Reading where
  | between
  | rule
  | action
  | text
deriving DecidableEq, Repr

/-- The state of a scan. -/
structure Scan where
  reading : Reading
  cursor : Cursor
deriving DecidableEq, Repr

namespace Scan

/-- The scan at the front of a rule. -/
def ofRule (rule : Text) : Scan := ⟨.between, .ofText rule⟩

/-- Claims the pending characters as text. -/
def cutText (c : Cursor) : Option Event × Scan :=
  (some (.token (.text c.cut.1)), ⟨.between, c.cut.2⟩)

/-- Whether nothing is left or an opener comes next. -/
def atBoundary (c : Cursor) : Bool :=
  match c.peek with
  | none => true
  | some x => isOpener x

/-- Gives an opener up that has no closer.  Followed by text it stays
pending for that text, otherwise it is text of its own. -/
def rewind (c : Cursor) : Option Event × Scan :=
  let c := c.backtrack
  if atBoundary c then cutText c else (none, ⟨.between, c⟩)

/-- One move between two events. -/
def stepBetween (c : Cursor) : Option (Option Event × Scan) :=
  match c.take with
  | none => none
  | some (x, c) =>
    some (none,
      if x = '#' then ⟨.rule, c.save⟩
      else if x = '[' then ⟨.action, c.save⟩
      else ⟨.text, c⟩)

/-- One move towards the closer of a reference or an action. -/
def stepSpan (reading : Reading) (closer : Char) (event : Text → Event) (c : Cursor) :
    Option Event × Scan :=
  match c.take with
  | none => rewind c
  | some (x, c) =>
    if x = closer then (some (event c.cut.1), ⟨.between, c.cut.2⟩) else (none, ⟨reading, c⟩)

/-- One move through text. -/
def stepText (c : Cursor) : Option Event × Scan :=
  match c.take with
  | none => cutText c
  | some (x, c') => if isOpener x then cutText c else (none, ⟨.text, c'⟩)

/-- One move: the event it completes, if any, and the scan behind it;
nothing once the rule has been read. -/
def step (s : Scan) : Option (Option Event × Scan) :=
  match s.reading with
  | .between => stepBetween s.cursor
  | .rule => some (stepSpan .rule '#' ruleEvent s.cursor)
  | .action => some (stepSpan .action ']' actionEvent s.cursor)
  | .text => some (stepText s.cursor)

/-- The moves end between two events, with nothing left. -/
theorem of_step_eq_none {s : Scan} (h : s.step = none) :
    s.reading = .between ∧ s.cursor.take = none := by
  obtain ⟨reading, c⟩ := s
  cases reading with
  | between =>
    refine ⟨rfl, ?_⟩
    cases htake : c.take with
    | none => rfl
    | some r => simp [step, stepBetween, htake] at h
  | rule => simp [step] at h
  | action => simp [step] at h
  | text => simp [step] at h

/-! ## Every move gets nearer to the end -/

/-- The characters still to be read, counted from the checkpoint while a
closer is looked for; and the moves that may come without reading. -/
def measure (s : Scan) : Nat × Nat :=
  let c := s.cursor
  match s.reading with
  | .between => (c.text.size - c.pos, 0)
  | .text => (c.text.size - c.pos, 1)
  | _ => (c.text.size - min c.saved c.pos, c.text.size - c.pos + 1)

/-- The order in which the measure lessens. -/
abbrev Less : Nat × Nat → Nat × Nat → Prop := Prod.Lex (· < ·) (· < ·)

theorem less_cutText {c : Cursor} {m n : Nat} {r : Option Event × Scan}
    (h : cutText c = r) (hm : c.text.size - c.pos ≤ m) (hn : 0 < n) : Less r.2.measure (m, n) := by
  subst h
  simp only [cutText, measure, Cursor.cut, Prod.lex_def]
  omega

theorem less_stepBetween {c : Cursor} {r : Option Event × Scan} (h : stepBetween c = some r) :
    Less r.2.measure (measure ⟨.between, c⟩) := by
  unfold stepBetween at h
  split at h
  · simp at h
  · next x c' hc =>
    have hp := Cursor.pos_lt_of_take hc
    have := Cursor.eq_of_take hc
    subst this
    simp only [Option.some.injEq] at h
    subst h
    split <;> (try split) <;> simp only [measure, Cursor.save, Prod.lex_def] <;> omega

theorem less_stepText (c : Cursor) : Less (stepText c).2.measure (measure ⟨.text, c⟩) := by
  unfold stepText
  split
  · exact less_cutText rfl (Nat.le_refl _) Nat.one_pos
  · next x c' hc =>
    have hp := Cursor.pos_lt_of_take hc
    have := Cursor.eq_of_take hc
    subst this
    split
    · exact less_cutText rfl (Nat.le_refl _) Nat.one_pos
    · simp only [measure, Prod.lex_def]
      omega

theorem less_rewind (c : Cursor) :
    Less (rewind c).2.measure (c.text.size - min c.saved c.pos, c.text.size - c.pos + 1) := by
  unfold rewind
  simp only
  split
  · refine less_cutText rfl ?_ (Nat.succ_pos _)
    simp only [Cursor.backtrack]
    omega
  · simp only [measure, Cursor.backtrack, Prod.lex_def]
    omega

theorem less_stepSpan {reading : Reading} (closer : Char) (event : Text → Event) (c : Cursor)
    (h : reading = .rule ∨ reading = .action) :
    Less (stepSpan reading closer event c).2.measure (measure ⟨reading, c⟩) := by
  have hm : measure ⟨reading, c⟩ =
      (c.text.size - min c.saved c.pos, c.text.size - c.pos + 1) := by
    obtain rfl | rfl := h <;> rfl
  rw [hm]
  unfold stepSpan
  split
  · exact less_rewind c
  · next x c' hc =>
    have hp := Cursor.pos_lt_of_take hc
    have := Cursor.eq_of_take hc
    subst this
    split
    · simp only [measure, Cursor.cut, Prod.lex_def]
      omega
    · obtain rfl | rfl := h <;> simp only [measure, Prod.lex_def] <;> omega

/-- Every move lessens the measure. -/
theorem less_of_step {s : Scan} {r : Option Event × Scan} (h : s.step = some r) :
    Less r.2.measure s.measure := by
  obtain ⟨reading, c⟩ := s
  cases reading <;> simp only [step, Option.some.injEq] at h
  · exact less_stepBetween h
  · subst h; exact less_stepSpan _ _ c (.inl rfl)
  · subst h; exact less_stepSpan _ _ c (.inr rfl)
  · subst h; exact less_stepText c

/-- The events of all moves from a scan on. -/
def events (s : Scan) : List Event :=
  match _h : s.step with
  | none => []
  | some (e?, s') => e?.toList ++ events s'
termination_by s.measure
decreasing_by exact less_of_step _h

end Scan

/-- The events of a rule. -/
def Rule.events (rule : Text) : List Event := (Scan.ofRule rule).events

/-- The tokens of a rule. -/
def Rule.tokens (rule : Text) : List Token := (Rule.events rule).filterMap Event.token?

end TextGrammar
