/-
# `TextGrammar.Proofs.Rule.Cursor` — what a cursor holds and what it has left

A cursor inside its text divides it into three parts: what the cuts have
claimed, what is pending for the next cut, and what is left to read.  The
operations move characters from one part to the next:

    take        the first character left becomes the last one pending
    cut         what is pending is claimed
    backtrack   what is pending behind the checkpoint is left again

`pending` is the second part (`TextGrammar.Rule.Cursor`) and `left` below
the third one.  What a scan reads is said in these two; the positions
themselves appear here, and where they are the subject.
-/
import TextGrammar.Rule.Cursor

namespace TextGrammar.Cursor

/-- The characters that were not read yet. -/
def left (c : Cursor) : Text := c.text.toList.drop c.pos

/-- The cut position is not behind the scan position, and that one is not
behind the end. -/
structure Within (c : Cursor) : Prop where
  start_le : c.start ≤ c.pos
  pos_le : c.pos ≤ c.text.size

theorem pending_eq (c : Cursor) :
    c.pending = (c.text.toList.take c.pos).drop c.start := by
  simp only [pending, Array.toList_extract, List.extract_eq_take_drop]
  rw [List.drop_take]

theorem pending_append_left {c : Cursor} (h : c.Within) :
    c.pending ++ c.left = c.text.toList.drop c.start := by
  rw [pending_eq, left]
  conv => rhs; rw [← List.take_append_drop c.pos c.text.toList]
  rw [List.drop_append_of_le_length]
  have := h.pos_le
  have := h.start_le
  simp only [List.length_take, Array.length_toList]
  omega

theorem length_pending {c : Cursor} (h : c.Within) : c.pending.length = c.pos - c.start := by
  have := h.pos_le
  rw [pending_eq, List.length_drop, List.length_take, Array.length_toList]
  omega

/-! ## The operations, one after the other -/

theorem within_ofText (t : Text) : (ofText t).Within :=
  ⟨Nat.le_refl _, Nat.zero_le _⟩

theorem pending_ofText (t : Text) : (ofText t).pending = [] := by
  simp [pending_eq, ofText]

theorem left_ofText (t : Text) : (ofText t).left = t := by
  simp [left, ofText]

theorem peek_eq (c : Cursor) : c.peek = c.left.head? := by
  rw [peek, left, List.head?_drop, Array.getElem?_toList]

theorem take_eq_none_iff {c : Cursor} : c.take = none ↔ c.left = [] := by
  rw [take, Option.map_eq_none_iff, peek_eq, List.head?_eq_none_iff]

theorem exists_take {c : Cursor} (h : c.left ≠ []) : ∃ x c', c.take = some (x, c') := by
  cases htake : c.take with
  | none => exact absurd (take_eq_none_iff.mp htake) h
  | some r => exact ⟨r.1, r.2, rfl⟩

theorem left_ne_nil_of_take {c : Cursor} {r : Char × Cursor} (h : c.take = some r) :
    c.left ≠ [] := by
  intro hleft
  rw [take_eq_none_iff.mpr hleft] at h
  cases h

theorem peek_of_take {c c' : Cursor} {x : Char} (h : c.take = some (x, c')) :
    c.peek = some x := by
  rw [take, Option.map_eq_some_iff] at h
  obtain ⟨y, hy, heq⟩ := h
  cases heq
  exact hy

/-- A character that is taken moves from the front of what is left to the
end of what is pending. -/
theorem parts_of_take {c c' : Cursor} {x : Char} (hw : c.Within) (h : c.take = some (x, c')) :
    c'.Within ∧ c.left = x :: c'.left ∧ c'.pending = c.pending ++ [x] := by
  have hpos := pos_lt_of_take h
  have hc := eq_of_take h
  have hx : c.text.toList[c.pos]? = some x := by
    simp only [take, peek, Option.map_eq_some_iff, Prod.mk.injEq] at h
    obtain ⟨y, hy, rfl, -⟩ := h
    rw [Array.getElem?_toList]
    exact hy
  have hstart := hw.start_le
  subst hc
  refine ⟨⟨Nat.le_succ_of_le hstart, hpos⟩, ?_, ?_⟩
  · obtain ⟨hlt, hget⟩ := List.getElem?_eq_some_iff.mp hx
    rw [left, left, List.drop_eq_getElem_cons hlt, hget]
  · rw [pending_eq, pending_eq]
    simp only [List.take_add_one, hx, Option.toList_some]
    rw [List.drop_append_of_le_length]
    simp only [List.length_take, Array.length_toList]
    omega

/-- The cut gives what is pending and leaves the rest to be read. -/
theorem parts_of_cut {c : Cursor} (hw : c.Within) :
    c.cut.2.Within ∧ c.cut.2.pending = [] ∧ c.cut.2.left = c.left := by
  refine ⟨⟨Nat.le_refl _, hw.pos_le⟩, ?_, rfl⟩
  rw [pending_eq, List.drop_eq_nil_of_le]
  simp only [cut, List.length_take]
  omega

theorem parts_of_save {c : Cursor} (hw : c.Within) :
    c.save.Within ∧ c.save.pending = c.pending ∧ c.save.left = c.left :=
  ⟨⟨hw.start_le, hw.pos_le⟩, rfl, rfl⟩

/-- A checkpoint behind one pending character is next to the cut position. -/
theorem saved_of_pending_singleton {c : Cursor} {o : Char} (hw : c.Within)
    (hp : c.pending = [o]) : c.save.saved = c.save.start + 1 := by
  have hlen := length_pending hw
  rw [hp, List.length_singleton] at hlen
  show c.pos = c.start + 1
  omega

/-- A checkpoint right behind the first pending character: to go back there
leaves what was read after it. -/
theorem parts_of_backtrack {c : Cursor} {o : Char} {body : Text} (hw : c.Within)
    (hs : c.saved = c.start + 1) (hp : c.pending = o :: body) :
    c.backtrack.Within ∧ c.backtrack.pending = [o] ∧ c.backtrack.left = body ++ c.left := by
  have hlen := length_pending hw
  rw [hp, List.length_cons] at hlen
  have hpos := hw.pos_le
  have hb : c.backtrack.Within :=
    ⟨by simp only [backtrack, hs]; omega, by simp only [backtrack, hs]; omega⟩
  have hall : c.text.toList.drop c.start = o :: (body ++ c.left) := by
    rw [← pending_append_left hw, hp, List.cons_append]
  have hleft : c.backtrack.left = body ++ c.left := by
    rw [left, backtrack, hs, ← List.drop_drop, hall, List.drop_succ_cons, List.drop_zero]
  refine ⟨hb, ?_, hleft⟩
  have happ : c.backtrack.pending ++ c.backtrack.left = c.text.toList.drop c.start :=
    pending_append_left hb
  rw [hleft, hall] at happ
  have hone : c.backtrack.pending ++ (body ++ c.left) = [o] ++ (body ++ c.left) := happ
  exact List.append_cancel_right hone

/-! ## Characters at positions -/

theorem getElem?_pos {c : Cursor} {x : Char} {rest : Text} (h : c.left = x :: rest) :
    c.text.toList[c.pos]? = some x := by
  rw [← List.head?_drop]
  exact congrArg List.head? h

theorem getElem?_start {c : Cursor} {o : Char} {body : Text} (hw : c.Within)
    (h : c.pending = o :: body) : c.text.toList[c.start]? = some o := by
  rw [← List.head?_drop, ← pending_append_left hw, h]
  rfl

end TextGrammar.Cursor
