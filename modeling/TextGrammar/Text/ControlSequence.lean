/-
# `TextGrammar.Text.ControlSequence` — terminal control sequences

A control sequence is an escape character and `[`, then digits, semicolons
and question marks, and one letter at the end.  Output that does not go to
a terminal is written without them.
-/
import TextGrammar.Text.Basic

namespace TextGrammar.Text

/-- Whether a character may stand inside a control sequence. -/
def isParameter (c : Char) : Bool := c.isDigit || c == ';' || c == '?'

/-- What follows the control sequence at the front of a text, if there is
one. -/
def behindSequence? : Text → Option Text
  | '\x1b' :: '[' :: rest =>
    match rest.dropWhile isParameter with
    | c :: behind => if c.isAlpha then some behind else none
    | [] => none
  | _ => none

theorem length_behindSequence? {t rest : Text} (h : behindSequence? t = some rest) :
    rest.length < t.length := by
  unfold behindSequence? at h
  split at h
  · next rest₀ =>
    have hd := (List.dropWhile_sublist (l := rest₀) isParameter).length_le
    split at h
    · next c behind hb =>
      rw [hb] at hd
      split at h
      · simp only [Option.some.injEq] at h
        subst h
        simp only [List.length_cons] at hd ⊢
        omega
      · simp at h
    · simp at h
  · simp at h

/-- The text without its control sequences. -/
def withoutSequences (t : Text) : Text :=
  match _h : behindSequence? t with
  | some rest => withoutSequences rest
  | none =>
    match t with
    | [] => []
    | c :: cs => c :: withoutSequences cs
termination_by t.length
decreasing_by
  · exact length_behindSequence? _h
  · simp

/-- A text without escape characters is written as it is. -/
theorem withoutSequences_of_not_mem {t : Text} (h : '\x1b' ∉ t) : withoutSequences t = t := by
  induction t with
  | nil =>
    rw [withoutSequences]
    rfl
  | cons c cs ih =>
    have hc : c ≠ '\x1b' := fun he => h (he ▸ List.mem_cons_self)
    have hnone : behindSequence? (c :: cs) = none := by
      unfold behindSequence?
      split
      · next heq => exact absurd (List.cons.inj heq).1 hc
      · rfl
    rw [withoutSequences]
    split
    · next rest hrest =>
      rw [hnone] at hrest
      cases hrest
    · show c :: withoutSequences cs = c :: cs
      rw [ih fun hm => h (List.mem_cons_of_mem c hm)]

end TextGrammar.Text
