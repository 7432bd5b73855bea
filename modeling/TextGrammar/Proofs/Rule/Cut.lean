/-
# `TextGrammar.Proofs.Rule.Cut` — the scan cuts a rule as the table says

Two definitions say what the events of a rule are: `Rule.events` runs a
cursor over it, with a checkpoint to go back to, and `Rule.split` reads the
table of `TextGrammar.Rule.Split`.  They agree on every rule:

    events_eq_split        Rule.events rule = Rule.split rule

A scan in the middle of a rule has claimed some characters by the events
behind it.  What it has *not* claimed, the pending characters and those left
to read, is a rule of its own, and the events still to come are those of
that rule (`split_unclaimed_of_step`).  For this the scan must be one that a
rule can lead to: `Scan.Coherent` lists what is pending in each reading.
The case that needs care is the reading between two events, in which one
opener may be pending that turned out to have no closer.
-/
import TextGrammar.Proofs.Rule.Cursor
import TextGrammar.Rule.Scan
import TextGrammar.Rule.Split

namespace TextGrammar

namespace Rule

/-! ## The table, line by line -/

/-- The character `c` in front of `t` starts text: it is no opener, or it is
one without a closer in `t`. -/
def StartsText (c : Char) (t : Text) : Prop :=
  (c = '#' → '#' ∉ t) ∧ (c = '[' → ']' ∉ t)

theorem startsText_of_isPlain {c : Char} (h : isPlain c = true) (t : Text) : StartsText c t := by
  constructor
  · rintro rfl
    exact absurd h (by decide)
  · rintro rfl
    exact absurd h (by decide)

theorem bne_of_not_mem {closer : Char} {u : Text} (h : closer ∉ u) :
    ∀ x ∈ u, (x != closer) = true := by
  intro x hx
  rw [bne_iff_ne]
  rintro rfl
  exact h hx

theorem splitSpan_of_closed {opener closer : Char} {event : Text → Event} {u w : Text}
    (h : closer ∉ u) :
    splitSpan opener closer event (u ++ closer :: w) =
      (event (opener :: u ++ [closer]), w) := by
  have hu := bne_of_not_mem h
  rw [splitSpan, List.dropWhile_append_of_pos hu, List.takeWhile_append_of_pos hu]
  simp

theorem splitSpan_of_unclosed {opener closer : Char} {event : Text → Event} {t : Text}
    (h : closer ∉ t) :
    splitSpan opener closer event t =
      (.token (.text (opener :: t.takeWhile isPlain)), t.dropWhile isPlain) := by
  have ht : (t ++ []).dropWhile (· != closer) = [].dropWhile (· != closer) :=
    List.dropWhile_append_of_pos (bne_of_not_mem h)
  rw [List.append_nil, List.dropWhile_nil] at ht
  rw [splitSpan, ht]

@[simp] theorem split_nil : split [] = [] := by
  rw [split]

theorem split_rule {u w : Text} (h : '#' ∉ u) :
    split ('#' :: (u ++ '#' :: w)) = ruleEvent ('#' :: u ++ ['#']) :: split w := by
  rw [split, splitFirst, if_pos rfl, splitSpan_of_closed h]

theorem split_action {u w : Text} (h : ']' ∉ u) :
    split ('[' :: (u ++ ']' :: w)) = actionEvent ('[' :: u ++ [']']) :: split w := by
  rw [split, splitFirst, if_neg (by decide), if_pos rfl, splitSpan_of_closed h]

theorem split_text {c : Char} {t : Text} (h : StartsText c t) :
    split (c :: t) =
      .token (.text (c :: t.takeWhile isPlain)) :: split (t.dropWhile isPlain) := by
  rw [split, splitFirst]
  split
  · next hc =>
    subst hc
    rw [splitSpan_of_unclosed (h.1 rfl)]
  · split
    · next hc =>
      subst hc
      rw [splitSpan_of_unclosed (h.2 rfl)]
    · rfl

theorem split_text_append {c : Char} {run w : Text} (hrun : ∀ x ∈ run, isPlain x = true)
    (hw : ∀ x ∈ w.head?, isPlain x = false) (h : StartsText c (run ++ w)) :
    split (c :: (run ++ w)) = .token (.text (c :: run)) :: split w := by
  rw [split_text h, List.takeWhile_append_of_pos hrun, List.dropWhile_append_of_pos hrun]
  cases w with
  | nil => rw [List.takeWhile_nil, List.dropWhile_nil, List.append_nil]
  | cons x w =>
    have hx := hw x rfl
    rw [List.takeWhile_cons_of_neg (by simp [hx]), List.dropWhile_cons_of_neg (by simp [hx]),
      List.append_nil]

end Rule

namespace Scan

open Rule (split StartsText isPlain)

/-! ## The scans that a rule can lead to -/

/-- What no event has claimed yet. -/
def unclaimed (s : Scan) : Text := s.cursor.pending ++ s.cursor.left

/-- What is pending in each reading.  Between two events it is nothing, or
an opener that was given up because no closer follows; the next character
is then plain.  In a span it is the opener and what follows it up to here,
with the checkpoint between the two.  In text it is the text up to here. -/
inductive Coherent : Scan → Prop
  | fresh {c : Cursor} : c.Within → c.pending = [] → Coherent ⟨.between, c⟩
  | unclosed {c : Cursor} {o x : Char} {rest : Text} : c.Within → c.pending = [o] →
      c.left = x :: rest → isPlain x = true → StartsText o c.left → Coherent ⟨.between, c⟩
  | rule {c : Cursor} {body : Text} : c.Within → c.pending = '#' :: body → '#' ∉ body →
      c.saved = c.start + 1 → Coherent ⟨.rule, c⟩
  | action {c : Cursor} {body : Text} : c.Within → c.pending = '[' :: body → ']' ∉ body →
      c.saved = c.start + 1 → Coherent ⟨.action, c⟩
  | text {c : Cursor} {x : Char} {run : Text} : c.Within → c.pending = x :: run →
      (∀ y ∈ run, isPlain y = true) → StartsText x (run ++ c.left) → Coherent ⟨.text, c⟩

theorem coherent_ofRule (rule : Text) : (ofRule rule).Coherent :=
  .fresh (Cursor.within_ofText rule) (Cursor.pending_ofText rule)

theorem unclaimed_ofRule (rule : Text) : (ofRule rule).unclaimed = rule := by
  rw [unclaimed, ofRule, Cursor.pending_ofText, Cursor.left_ofText, List.nil_append]

/-- A move is in step with the table if it leads to a coherent scan and its
event is the one in front of what that scan has not claimed. -/
def InStep (t : Text) (r : Option Event × Scan) : Prop :=
  r.2.Coherent ∧ split t = r.1.toList ++ split r.2.unclaimed

/-- To cut text: everything pending becomes one event. -/
theorem inStep_cutText {c : Cursor} {x : Char} {run : Text} (hw : c.Within)
    (hp : c.pending = x :: run) (hrun : ∀ y ∈ run, isPlain y = true)
    (hleft : ∀ y ∈ c.left.head?, isPlain y = false) (h : StartsText x (run ++ c.left)) :
    InStep (c.pending ++ c.left) (cutText c) := by
  obtain ⟨hw', hp', hl'⟩ := Cursor.parts_of_cut hw
  refine ⟨.fresh hw' hp', ?_⟩
  show split (c.pending ++ c.left) = [.token (.text c.pending)] ++ split (c.cut.2.pending ++ c.cut.2.left)
  rw [hp', hl', hp, List.cons_append, Rule.split_text_append hrun hleft h]
  rfl

theorem atBoundary_iff {c : Cursor} :
    atBoundary c = true ↔ ∀ y ∈ c.left.head?, isPlain y = false := by
  rw [atBoundary, Cursor.peek_eq]
  cases c.left.head? with
  | none => simp
  | some x => simp [isPlain]

/-- To give an opener up: it is text of its own, or waits for the text
behind it.  In neither case does the table see a difference. -/
theorem inStep_rewind {c : Cursor} {o : Char} {body : Text} (hw : c.Within)
    (hp : c.pending = o :: body) (hs : c.saved = c.start + 1) (h : StartsText o (body ++ c.left)) :
    InStep (c.pending ++ c.left) (rewind c) := by
  obtain ⟨hw', hp', hl'⟩ := Cursor.parts_of_backtrack hw hs hp
  -- what was read behind the opener is left to be read again
  have hall : c.pending ++ c.left = c.backtrack.pending ++ c.backtrack.left := by
    rw [hp, hp', hl']
    rfl
  rw [← hl'] at h
  rw [hall, rewind]
  by_cases hb : atBoundary c.backtrack = true
  · rw [if_pos hb]
    exact inStep_cutText hw' hp' (fun _ hy => absurd hy List.not_mem_nil)
      (atBoundary_iff.mp hb) h
  · rw [if_neg hb]
    rw [atBoundary_iff] at hb
    cases hleft : c.backtrack.left with
    | nil => exact absurd (by rw [hleft]; simp) hb
    | cons x rest =>
      have hx : isPlain x = true := by simpa [hleft] using hb
      refine ⟨.unclosed hw' hp' hleft hx h, ?_⟩
      rw [← hleft]
      rfl

/-! ## Every move is in step with the table -/

section Span

variable {reading : Reading} {opener closer : Char} {event : Text → Event}

/-- A move towards a closer.  What makes a span a reference or an action is
left open: its line of the table, and that it is coherent while its body has
no closer. -/
theorem inStep_stepSpan {c : Cursor} {body : Text}
    (hline : ∀ u w, closer ∉ u →
      split (opener :: (u ++ closer :: w)) = event (opener :: u ++ [closer]) :: split w)
    (htext : ∀ t, closer ∉ t → StartsText opener t)
    (hcoherent : ∀ {c : Cursor} {body : Text}, c.Within → c.pending = opener :: body →
      closer ∉ body → c.saved = c.start + 1 → Coherent ⟨reading, c⟩)
    (hw : c.Within) (hp : c.pending = opener :: body) (hbody : closer ∉ body)
    (hs : c.saved = c.start + 1) :
    InStep (c.pending ++ c.left) (stepSpan reading closer event c) := by
  rw [stepSpan]
  cases htake : c.take with
  | none =>
    have hleft := Cursor.take_eq_none_iff.mp htake
    refine inStep_rewind hw hp hs (htext _ ?_)
    rw [hleft, List.append_nil]
    exact hbody
  | some r =>
    obtain ⟨x, c'⟩ := r
    obtain ⟨hw', hl', hp'⟩ := Cursor.parts_of_take hw htake
    have hc := Cursor.eq_of_take htake
    by_cases hx : x = closer
    · obtain ⟨hwc, hpc, hlc⟩ := Cursor.parts_of_cut hw'
      simp only [if_pos hx]
      refine ⟨.fresh hwc hpc, ?_⟩
      show split (c.pending ++ c.left) =
        event c'.pending :: split (c'.cut.2.pending ++ c'.cut.2.left)
      rw [hpc, hlc, hl', hp', hp, hx, List.cons_append, hline body c'.left hbody]
      rfl
    · simp only [if_neg hx]
      have hpx : c'.pending = opener :: (body ++ [x]) := by
        rw [hp', hp]
        rfl
      refine ⟨hcoherent hw' hpx ?_ (by rw [hc]; exact hs), ?_⟩
      · rw [List.mem_append, List.mem_singleton]
        rintro (h | h)
        · exact hbody h
        · exact hx h.symm
      · show split (c.pending ++ c.left) = split (c'.pending ++ c'.left)
        rw [hl', hp', List.append_assoc]
        rfl

end Span

theorem inStep_stepText {c : Cursor} {x : Char} {run : Text} (hw : c.Within)
    (hp : c.pending = x :: run) (hrun : ∀ y ∈ run, isPlain y = true)
    (h : StartsText x (run ++ c.left)) : InStep (c.pending ++ c.left) (stepText c) := by
  rw [stepText]
  cases htake : c.take with
  | none =>
    have hleft := Cursor.take_eq_none_iff.mp htake
    exact inStep_cutText hw hp hrun (by rw [hleft]; simp) h
  | some r =>
    obtain ⟨y, c'⟩ := r
    obtain ⟨hw', hl', hp'⟩ := Cursor.parts_of_take hw htake
    cases hy : isOpener y with
    | true =>
      simp only [hy, if_true]
      refine inStep_cutText hw hp hrun ?_ h
      rw [hl']
      simp [isPlain, hy]
    | false =>
      simp only [hy, Bool.false_eq_true, if_false]
      have hpy : c'.pending = x :: (run ++ [y]) := by
        rw [hp', hp]
        rfl
      refine ⟨.text hw' hpy ?_ ?_, ?_⟩
      · intro z hz
        rcases List.mem_append.mp hz with hz | hz
        · exact hrun z hz
        · rw [List.mem_singleton.mp hz, isPlain, hy, Bool.not_false]
      · rw [List.append_assoc]
        rw [hl'] at h
        exact h
      · show split (c.pending ++ c.left) = split (c'.pending ++ c'.left)
        rw [hl', hp', List.append_assoc]
        rfl

theorem parts_of_opener {c c' : Cursor} {o : Char} (hw : c.Within) (hp : c.pending = [])
    (h : c.take = some (o, c')) :
    c'.save.Within ∧ c'.save.pending = [o] ∧ c'.save.saved = c'.save.start + 1 := by
  obtain ⟨hw', -, hp'⟩ := Cursor.parts_of_take hw h
  rw [hp, List.nil_append] at hp'
  exact ⟨(Cursor.parts_of_save hw').1, hp', Cursor.saved_of_pending_singleton hw' hp'⟩

/-- A move between two events: it completes none, and what it takes tells
the reading. -/
theorem inStep_stepBetween {c : Cursor} {r : Option Event × Scan}
    (hc : Coherent ⟨.between, c⟩) (h : stepBetween c = some r) :
    InStep (c.pending ++ c.left) r := by
  rw [stepBetween] at h
  cases htake : c.take with
  | none => simp [htake] at h
  | some p =>
    obtain ⟨x, c'⟩ := p
    simp only [htake, Option.some.injEq] at h
    subst h
    have hw : c.Within := by
      cases hc with
      | fresh hw _ => exact hw
      | unclosed hw _ _ _ _ => exact hw
    obtain ⟨hw', hl', hp'⟩ := Cursor.parts_of_take hw htake
    refine ⟨?_, ?_⟩
    · cases hc with
      | fresh hw hp =>
        by_cases hx : x = '#'
        · obtain ⟨hwo, hpo, hso⟩ := parts_of_opener hw hp htake
          rw [if_pos hx]
          exact .rule hwo (hx ▸ hpo) List.not_mem_nil hso
        · rw [if_neg hx]
          by_cases hx' : x = '['
          · obtain ⟨hwo, hpo, hso⟩ := parts_of_opener hw hp htake
            rw [if_pos hx']
            exact .action hwo (hx' ▸ hpo) List.not_mem_nil hso
          · rw [if_neg hx']
            rw [hp, List.nil_append] at hp'
            exact .text hw' hp' (fun _ hy => absurd hy List.not_mem_nil)
              ⟨fun h => absurd h hx, fun h => absurd h hx'⟩
      | @unclosed c o y rest hw hp hl hy hs =>
        -- The opener was given up in front of a plain character: this one.
        have hxy : x = y := by
          rw [hl'] at hl
          exact (List.cons.inj hl).1
        subst hxy
        rw [if_neg (by rintro rfl; exact absurd hy (by decide)),
          if_neg (by rintro rfl; exact absurd hy (by decide))]
        rw [hp, List.singleton_append] at hp'
        refine .text hw' hp' ?_ ?_
        · intro z hz
          rw [List.mem_singleton.mp hz]
          exact hy
        · rw [List.singleton_append, ← hl']
          exact hs
    · have hall : c.pending ++ c.left = c'.pending ++ c'.left := by
        rw [hl', hp', List.append_assoc]
        rfl
      rw [hall, Option.toList_none, List.nil_append]
      split
      · rfl
      · split <;> rfl

/-- Every move of a coherent scan leads to a coherent one, and completes the
events by which the two differ. -/
theorem split_unclaimed_of_step {s : Scan} {r : Option Event × Scan} (hs : s.Coherent)
    (h : s.step = some r) :
    r.2.Coherent ∧ split s.unclaimed = r.1.toList ++ split r.2.unclaimed := by
  cases hs with
  | fresh hw hp => exact inStep_stepBetween (.fresh hw hp) h
  | unclosed hw hp hl hx ho => exact inStep_stepBetween (.unclosed hw hp hl hx ho) h
  | rule hw hp hbody hsaved =>
    simp only [step, Option.some.injEq] at h
    rw [← h]
    refine inStep_stepSpan (fun _ _ hu => Rule.split_rule hu) ?_ .rule hw hp hbody hsaved
    intro t ht
    exact ⟨fun _ => ht, fun h => absurd h (by decide)⟩
  | action hw hp hbody hsaved =>
    simp only [step, Option.some.injEq] at h
    rw [← h]
    refine inStep_stepSpan (fun _ _ hu => Rule.split_action hu) ?_ .action hw hp hbody hsaved
    intro t ht
    exact ⟨fun h => absurd h (by decide), fun _ => ht⟩
  | text hw hp hrun hx =>
    simp only [step, Option.some.injEq] at h
    rw [← h]
    exact inStep_stepText hw hp hrun hx

theorem unclaimed_of_step_eq_none {s : Scan} (hs : s.Coherent) (h : s.step = none) :
    s.unclaimed = [] := by
  obtain ⟨hreading, htake⟩ := of_step_eq_none h
  have hleft := Cursor.take_eq_none_iff.mp htake
  cases hs with
  | fresh _ hp => rw [unclaimed, hp, hleft, List.nil_append]
  | unclosed _ _ hl _ _ =>
    rw [hleft] at hl
    cases hl
  | rule _ _ _ _ => cases hreading
  | action _ _ _ _ => cases hreading
  | text _ _ _ _ => cases hreading

theorem events_eq_split_unclaimed {s : Scan} (hs : s.Coherent) :
    s.events = split s.unclaimed := by
  fun_induction events s with
  | case1 s hstep => rw [unclaimed_of_step_eq_none hs hstep, Rule.split_nil]
  | case2 s e? s' hstep ih =>
    obtain ⟨hs', hsplit⟩ := split_unclaimed_of_step hs hstep
    rw [hsplit, ih hs']

end Scan

/-- The scan and the table agree on every rule. -/
theorem Rule.events_eq_split (rule : Text) : events rule = split rule := by
  rw [events, Scan.events_eq_split_unclaimed (Scan.coherent_ofRule rule),
    Scan.unclaimed_ofRule]

end TextGrammar
