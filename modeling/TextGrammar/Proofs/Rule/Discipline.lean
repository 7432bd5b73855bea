/-
# `TextGrammar.Proofs.Rule.Discipline` — how a scan uses its cursor

A scan goes back, and what it goes back to is one checkpoint that everybody
sets.  That this is safe hangs on what is pending at each point between two
operations (`Holds`).  The obstruction is the opener that was given up: it
stays pending while the next part begins, and a checkpoint set behind a second
opener would be one too far to the right.  But an opener is only left pending
in front of a character that is none, and so the next part is text, which sets
no checkpoint.

From this follows how every scan of every rule uses its cursor:

    scan_disciplined    in each state the positions are in order and inside
                        the rule, nothing is read behind the end, the
                        checkpoint gone back to is right behind the opener
                        that is pending, and the cuts are the rule up to the
                        cut position; each part begins further to the right
                        than the one before it; and the scan ends
-/
import TextGrammar.Proofs.Rule.Operation

namespace TextGrammar.Scan

variable {c d : Cursor} {p q : Point} {op : Cursor.Op} {e? : Option Event} {kind : SpanKind}
  {rule : Text}

/-! ## What holds at each point -/

/-- Nothing is pending, or an opener that was given up, in front of a
character that is none. -/
def AtPart (c : Cursor) : Prop :=
  c.pending = [] ∨ ∃ o x rest, c.pending = [o] ∧ isOpener o = true ∧
    c.left = x :: rest ∧ isOpener x = false

/-- The opener is pending with what was read behind it, and the checkpoint
stands between the two. -/
def InSpan (kind : SpanKind) (c : Cursor) : Prop :=
  c.saved = c.start + 1 ∧ ∃ body, c.pending = kind.opener :: body

/-- The opener alone is pending. -/
def OpenerPending (c : Cursor) : Prop := ∃ kind : SpanKind, c.pending = [kind.opener]

/-- What holds of the cursor at a point. -/
def Holds : Point → Cursor → Prop
  | .part, c => AtPart c
  | .first, c => AtPart c ∧ c.left ≠ []
  | .opened kind, c => c.pending = [kind.opener]
  | .span kind, c => InSpan kind c
  | .spanNext kind, c => InSpan kind c ∧ c.left ≠ []
  | .closed _, _ => True
  | .unclosed, c => ∃ kind, InSpan kind c
  | .givenUp, c => OpenerPending c
  | .givenUpNext, c => OpenerPending c ∧ c.left ≠ []
  | .text, _ => True
  | .textNext, c => c.left ≠ []
  | .textTake, c => c.left ≠ []
  | .ended, _ => True
  | .done, c => c.pending = [] ∧ c.left = []
  | .failed, _ => False

/-- Where the scan reads a character, one is left. -/
theorem Holds.left_ne_nil (h : Holds p c) (hop : p.op? = some .take ∨ p.op? = some .peek) :
    c.left ≠ [] := by
  rcases hop with hop | hop <;> cases p <;> simp [Point.op?] at hop
  case first => exact h.2
  case spanNext => exact h.2
  case textTake => exact h
  case givenUpNext => exact h.2
  case textNext => exact h

/-- The scan goes back in spans only. -/
theorem Holds.inSpan (h : Holds p c) (hop : p.op? = some .backtrack) :
    ∃ kind, InSpan kind c := by
  cases p <;> simp [Point.op?] at hop
  case unclosed => exact h

/-! ### Every operation leads to where it holds again -/

/-- If an opener is pending, the next part does not begin with one. -/
theorem AtPart.pending_opener {c c' : Cursor} (hw : c.Within) (h : AtPart c)
    (htake : c.take = some (kind.opener, c')) : c'.pending = [kind.opener] := by
  obtain ⟨-, hleft, hpending⟩ := Cursor.parts_of_take hw htake
  rcases h with hnil | ⟨o, x, rest, -, -, hx, hplain⟩
  · rw [hpending, hnil, List.nil_append]
  · rw [hleft] at hx
    rw [← (List.cons.inj hx).1, isOpener_opener] at hplain
    cases hplain

theorem InSpan.take {c c' : Cursor} {x : Char} (hw : c.Within) (h : InSpan kind c)
    (htake : c.take = some (x, c')) : InSpan kind c' := by
  obtain ⟨hsaved, body, hbody⟩ := h
  obtain ⟨-, -, hpending⟩ := Cursor.parts_of_take hw htake
  refine ⟨?_, body ++ [x], ?_⟩
  · rw [Cursor.eq_of_take htake]
    exact hsaved
  · rw [hpending, hbody, List.cons_append]

theorem Holds.performs (hw : c.Within) (h : Holds p c) (hperforms : Performs p c e? q d) :
    Holds q d := by
  cases hperforms with
  | finishes htake =>
    have hleft := Cursor.take_eq_none_iff.mp htake
    rcases h with hnil | ⟨o, x, rest, -, -, hcons, -⟩
    · exact ⟨hnil, hleft⟩
    · rw [hleft] at hcons
      cases hcons
  | begins htake => exact ⟨h, Cursor.left_ne_nil_of_take htake⟩
  | opens htake => exact h.1.pending_opener hw htake
  | startsText => trivial
  | marks => exact ⟨Cursor.saved_of_pending_singleton hw h, [], h⟩
  | lacksCloser => exact ⟨_, h⟩
  | readsOn htake => exact ⟨h, Cursor.left_ne_nil_of_take htake⟩
  | closes => trivial
  | passes htake => exact h.1.take hw htake
  | cutsSpan => exact .inl (Cursor.parts_of_cut hw).2.1
  | goesBack =>
    obtain ⟨kind, hsaved, body, hbody⟩ := h
    exact ⟨kind, (Cursor.parts_of_backtrack hw hsaved hbody).2.1⟩
  | nothingBehind => trivial
  | looksBehind htake => exact ⟨h, Cursor.left_ne_nil_of_take htake⟩
  | openerBehind => trivial
  | waits htake hx =>
    obtain ⟨⟨kind, hpending⟩, -⟩ := h
    obtain ⟨-, hleft, -⟩ := Cursor.parts_of_take hw htake
    exact .inr ⟨kind.opener, _, _, hpending, isOpener_opener kind, hleft, hx⟩
  | endsText => trivial
  | looksAhead htake => exact Cursor.left_ne_nil_of_take htake
  | stopsText => trivial
  | goesOn => exact h
  | takes => trivial
  | cutsText => exact .inl (Cursor.parts_of_cut hw).2.1

/-! ## Every state of a run -/

namespace Progress

variable {s : Progress}

/-- What every operation keeps. -/
structure Sound (rule : Text) (s : Progress) : Prop where
  text_eq : s.cursor.text = rule.toArray
  inside : s.cursor.Inside
  tiles : s.cursor.Tiles s.cuts
  holds : Holds s.point s.cursor

theorem sound_ofRule (rule : Text) : Sound rule (ofRule rule) where
  text_eq := rfl
  inside := Cursor.inside_ofText rule
  tiles := Cursor.tiles_ofText rule
  holds := .inl (Cursor.pending_ofText rule)

/-- Where something holds, the next operation is one of the lines. -/
theorem Sound.performs (h : Sound rule s) (hop : s.point.op? = some op) :
    ∃ e?, Performs s.point s.cursor e? s.advance.point s.advance.cursor := by
  have hleft : op = .take ∨ op = .peek → s.cursor.left ≠ [] := by
    rintro (rfl | rfl)
    · exact h.holds.left_ne_nil (.inl hop)
    · exact h.holds.left_ne_nil (.inr hop)
  obtain ⟨e?, q, d, hperforms⟩ := exists_performs hop hleft
  obtain ⟨cuts, hadvance⟩ := hperforms.advance
  rw [hadvance]
  exact ⟨e?, hperforms⟩

theorem Sound.advance (h : Sound rule s) : Sound rule s.advance := by
  cases hop : s.point.op? with
  | none =>
    rw [Progress.advance, hop]
    exact h
  | some op =>
    obtain ⟨e?, hperforms⟩ := h.performs hop
    have hholds := h.holds.performs h.tiles.toWithin hperforms
    rw [Progress.advance, hop] at hholds ⊢
    refine ⟨(Cursor.text_run s.cursor op).trans h.text_eq, h.inside.run op, ?_, hholds⟩
    refine h.tiles.run h.inside ?_
    rintro rfl
    obtain ⟨kind, hsaved, -⟩ := h.holds.inSpan hop
    rw [hsaved]
    exact Nat.le_succ _

theorem Sound.run (h : Sound rule s) (n : Nat) : Sound rule (run n s) := by
  induction n generalizing s with
  | zero => exact h
  | succ n ih => exact ih h.advance

/-! ### What this means for the positions -/

/-- How a scan of the rule uses its cursor, between any two operations. -/
structure Disciplined (rule : Text) (s : Progress) : Prop where
  text_eq : s.cursor.text = rule.toArray
  start_le : s.cursor.start ≤ s.cursor.pos
  pos_le : s.cursor.pos ≤ rule.length
  reads : s.point.op? = some .take ∨ s.point.op? = some .peek → s.cursor.pos < rule.length
  not_failed : s.point ≠ .failed
  goes_back : s.point.op? = some .backtrack →
    s.cursor.saved = s.cursor.start + 1 ∧ s.cursor.saved ≤ s.cursor.pos ∧
      ∃ o, rule[s.cursor.start]? = some o ∧ isOpener o = true
  at_part : s.point = .part →
    s.cursor.start = s.cursor.pos ∨
    s.cursor.start + 1 = s.cursor.pos ∧
      (∃ o, rule[s.cursor.start]? = some o ∧ isOpener o = true) ∧
      ∃ x, rule[s.cursor.pos]? = some x ∧ isOpener x = false
  claimed : s.cuts.flatten = rule.take s.cursor.start
  at_end : s.point = .done → s.cursor.start = rule.length ∧ s.cursor.pos = rule.length

theorem Sound.disciplined (h : Sound rule s) : Disciplined rule s := by
  obtain ⟨htext, hin, htiles, hholds⟩ := h
  have hlist : s.cursor.text.toList = rule := by rw [htext]
  have hsize : s.cursor.text.size = rule.length := by rw [htext]; rfl
  have hw := htiles.toWithin
  have hlen := Cursor.length_pending hw
  have hstart := hw.start_le
  refine {
    text_eq := htext
    start_le := hstart
    pos_le := hsize ▸ hin.pos_le
    reads := ?reads
    not_failed := ?not_failed
    goes_back := ?goes_back
    at_part := ?at_part
    claimed := by rw [htiles.flatten_eq, hlist]
    at_end := ?at_end }
  case reads =>
    intro hop
    obtain ⟨x, c', htake⟩ := Cursor.exists_take (hholds.left_ne_nil hop)
    exact hsize ▸ Cursor.pos_lt_of_take htake
  case not_failed =>
    intro hp
    rw [hp] at hholds
    exact hholds
  case goes_back =>
    intro hop
    obtain ⟨kind, hsaved, body, hbody⟩ := hholds.inSpan hop
    refine ⟨hsaved, ?_, kind.opener, hlist ▸ Cursor.getElem?_start hw hbody, isOpener_opener kind⟩
    rw [hbody, List.length_cons] at hlen
    omega
  case at_part =>
    intro hp
    rw [hp] at hholds
    rcases hholds with hnil | ⟨o, x, rest, hpending, ho, hleft, hx⟩
    · rw [hnil, List.length_nil] at hlen
      exact .inl (by omega)
    · rw [hpending, List.length_singleton] at hlen
      exact .inr ⟨by omega, ⟨o, hlist ▸ Cursor.getElem?_start hw hpending, ho⟩,
        x, hlist ▸ Cursor.getElem?_pos hleft, hx⟩
  case at_end =>
    intro hp
    rw [hp] at hholds
    have hrest := Cursor.pending_append_left hw
    rw [hholds.1, hholds.2, List.append_nil, hlist] at hrest
    have hend := List.drop_eq_nil_iff.mp hrest.symm
    have hpos := hin.pos_le
    omega

end Progress

/-! ## Every part begins further to the right -/

/-- A part began at `n`, and the scan is further to the right; in a span the
checkpoint is as well, so that going back does not lead to `n` again. -/
def Beyond (n : Nat) : Point → Cursor → Prop
  | .first, c => n ≤ c.pos
  | .span _, c | .spanNext _, c | .unclosed, c => n < c.pos ∧ n < c.saved
  | .done, _ | .failed, _ => True
  | _, c => n < c.pos

theorem beyond_take {n : Nat} {x : Char} (h : n ≤ c.pos) (htake : c.take = some (x, d)) :
    n < d.pos := by
  rw [Cursor.eq_of_take htake]
  exact Nat.lt_succ_of_le h

theorem Beyond.performs {n : Nat} (h : Beyond n p c) (hperforms : Performs p c e? q d) :
    Beyond n q d := by
  cases hperforms with
  | finishes => trivial
  | begins => exact Nat.le_of_lt h
  | opens htake => exact beyond_take h htake
  | startsText htake => exact beyond_take h htake
  | marks => exact ⟨h, h⟩
  | lacksCloser => exact h
  | readsOn => exact h
  | closes htake => exact beyond_take (Nat.le_of_lt h.1) htake
  | passes htake =>
    refine ⟨beyond_take (Nat.le_of_lt h.1) htake, ?_⟩
    rw [Cursor.eq_of_take htake]
    exact h.2
  | cutsSpan => exact h
  | goesBack => exact h.2
  | nothingBehind => exact h
  | looksBehind => exact h
  | openerBehind => exact h
  | waits => exact h
  | endsText => exact h
  | looksAhead => exact h
  | stopsText => exact h
  | goesOn => exact h
  | takes htake => exact beyond_take (Nat.le_of_lt h) htake
  | cutsText => exact h

namespace Progress

variable {s : Progress}

theorem beyond_run {n : Nat} (hs : Sound rule s) (h : Beyond n s.point s.cursor) (k : Nat) :
    Beyond n (run k s).point (run k s).cursor := by
  induction k generalizing s with
  | zero => exact h
  | succ k ih =>
    refine ih hs.advance ?_
    cases hop : s.point.op? with
    | none =>
      rw [advance, hop]
      exact h
    | some op =>
      obtain ⟨e?, hperforms⟩ := hs.performs hop
      exact h.performs hperforms

/-- From one part to any later one. -/
theorem pos_lt_of_part {k : Nat} (hs : Sound rule s) (hp : s.point = .part)
    (hk : (run (k + 1) s).point = .part) : s.cursor.pos < (run (k + 1) s).cursor.pos := by
  have hfirst : Beyond s.cursor.pos s.advance.point s.advance.cursor := by
    have hop : s.point.op? = some .isExhausted := by rw [hp]; rfl
    obtain ⟨e?, hperforms⟩ := hs.performs hop
    rw [hp] at hperforms
    generalize s.advance.point = q at hperforms
    generalize s.advance.cursor = d at hperforms
    cases hperforms with
    | finishes => trivial
    | begins => exact Nat.le_refl s.cursor.pos
  have hbeyond := beyond_run hs.advance hfirst k
  rw [run] at hk ⊢
  rw [hk] at hbeyond
  exact hbeyond

/-- **Every scan keeps its cursor in order**, reads only what is there, begins
each part further to the right than the last one, and ends with the events of
the rule. -/
theorem scan_disciplined (rule : Text) :
    (∀ n, Disciplined rule (run n (ofRule rule))) ∧
    (∀ m n, m < n → (run m (ofRule rule)).point = .part → (run n (ofRule rule)).point = .part →
      (run m (ofRule rule)).cursor.pos < (run n (ofRule rule)).cursor.pos) ∧
    ∃ n, (run n (ofRule rule)).point = .done ∧
      (run n (ofRule rule)).events = Rule.events rule := by
  refine ⟨fun n => ((sound_ofRule rule).run n).disciplined, ?_, exists_run_done rule⟩
  intro m n hmn hm hn
  obtain ⟨k, rfl⟩ := Nat.exists_eq_add_of_lt hmn
  rw [Nat.add_assoc, run_add] at hn ⊢
  exact pos_lt_of_part ((sound_ofRule rule).run m) hm hn

/-- In `[a#` both openers are given up, and the first waits for the `a`. -/
theorem scan_disciplined_waiting :
    (run 8 (ofRule "[a#".toList)).point.op? = some .backtrack ∧
    (run 8 (ofRule "[a#".toList)).cursor.saved = (run 8 (ofRule "[a#".toList)).cursor.start + 1 ∧
    11 < 16 ∧ (run 11 (ofRule "[a#".toList)).point = .part ∧
    (run 16 (ofRule "[a#".toList)).point = .part ∧
    (run 11 (ofRule "[a#".toList)).cursor.pos < (run 16 (ofRule "[a#".toList)).cursor.pos := by
  obtain ⟨hdisciplined, hparts, -⟩ := scan_disciplined "[a#".toList
  have hback : (run 8 (ofRule "[a#".toList)).point.op? = some .backtrack := by decide
  have hm : (run 11 (ofRule "[a#".toList)).point = .part := by decide
  have hn : (run 16 (ofRule "[a#".toList)).point = .part := by decide
  exact ⟨hback, ((hdisciplined 8).goes_back hback).1, by decide, hm, hn,
    hparts 11 16 (by decide) hm hn⟩

end Progress

end TextGrammar.Scan
