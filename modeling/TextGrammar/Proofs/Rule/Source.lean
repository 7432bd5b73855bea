/-
# `TextGrammar.Proofs.Rule.Source` — a rule is written back from its events

Every event stands for the characters it was read from (`Event.source`).
Written one after the other these are the rule again, with one exception.  A
span that starts with `[:` has no key behind its first `[`, and is read from
the leftmost later `[` behind which a key and a value stand.  What is in front
of that `[` belongs to the span, and so to no other event, but it is not in
the action either:

    `[:[a:b]`     the one event is the action `[a:b]`

`ReadFrom t es passed` says how the text `t` is made of the events `es`, and
lists what actions have passed over.  The main statement is that every rule is
made of its events in this way, and that the sources alone are the rule exactly
if nothing was passed over:

    readFrom_events    ∃ passed, ReadFrom rule (events rule) passed, where
                       sources = rule ↔ passed = [], and
                       passed = [] unless `[:` occurs in the rule
-/
import TextGrammar.Proofs.Rule.Parts

namespace TextGrammar.Rule

/-- What stands in front of the `[` from which a span is read, when that is
not its first one: the span starts without a key and is not closed yet, and
none of its `[` so far binds. -/
structure Passed (before key value : Text) : Prop where
  no_key : ['[', ':'] <+: before
  not_closed : ']' ∉ before
  leftmost : ∀ before' key' value',
    BindsAt (before ++ '[' :: key ++ ':' :: value) before' key' value' →
      before.length ≤ before'.length

/-- The text is made of the sources of the events, one after the other.  What
an action passes over is in front of its source, and is listed. -/
inductive ReadFrom : Text → List Event → List Text → Prop
  | nil : ReadFrom [] [] []
  | whole {e : Event} {t : Text} {es : List Event} {passed : List Text} :
      ReadFrom t es passed → ReadFrom (e.source ++ t) (e :: es) passed
  | late {before key value t : Text} {es : List Event} {passed : List Text} :
      Passed before key value → ReadFrom t es passed →
      ReadFrom (before ++ Token.source (.action key value) ++ t)
        (.token (.action key value) :: es) (before :: passed)

/-! ## Spans that are read late -/

/-- A span that does not bind at its first `[`, but at another one, has the
colon right behind the first. -/
theorem no_key_of_bindsAt {u before key value : Text} {b : Char}
    (hfront : ∀ k v, ¬ BindsAt ('[' :: u) [] k v)
    (h : BindsAt ('[' :: u) (b :: before) key value) : ['[', ':'] <+: b :: before := by
  have hspan : '[' :: u = b :: (before ++ '[' :: key ++ ':' :: value) := h.span_eq
  obtain ⟨rfl, hu⟩ := List.cons.inj hspan
  have hcolon : ':' ∈ u := by
    rw [hu]
    exact List.mem_append_right _ List.mem_cons_self
  obtain ⟨k, w, hkw, hk⟩ := List.eq_append_cons_of_mem hcolon
  cases k with
  | nil =>
    -- the colon is the first character of `before`, for behind it comes a `[`
    rw [hu, List.nil_append] at hkw
    cases before with
    | nil => exact absurd (List.cons.inj hkw).1 (by decide)
    | cons c before =>
      obtain ⟨rfl, -⟩ := List.cons.inj hkw
      exact ⟨before, rfl⟩
  | cons c k =>
    exfalso
    cases w with
    | nil =>
      -- the colon is the last character, so that there is no value behind it
      have hlast := congrArg List.dropLast (hu.symm.trans hkw)
      rw [List.dropLast_append_of_ne_nil (List.cons_ne_nil _ _),
        List.dropLast_cons_of_ne_nil h.value_ne, List.dropLast_concat] at hlast
      apply hk
      rw [← hlast]
      exact List.mem_append_right _ List.mem_cons_self
    | cons x w =>
      refine hfront (c :: k) (x :: w) ⟨?_, List.cons_ne_nil c k, hk, List.cons_ne_nil x w⟩
      rw [hkw]
      rfl

theorem source_action (key value : Text) :
    Token.source (.action key value) = '[' :: key ++ ':' :: value ++ [']'] := by
  simp [Token.source]

/-- A closed span that binds is the source of its action, or passes over
something. -/
theorem readFrom_action {u w key value : Text} {es : List Event} {passed : List Text}
    (hu : ']' ∉ u) (h : BindsFirst ('[' :: u) key value) (hw : ReadFrom w es passed) :
    ∃ passed', ReadFrom ('[' :: u ++ ']' :: w) (.token (.action key value) :: es) passed' := by
  obtain ⟨before, hb, hleast⟩ := h
  have hspan : '[' :: u ++ ']' :: w = before ++ Token.source (.action key value) ++ w := by
    rw [hb.span_eq, source_action]
    simp only [List.append_assoc, List.cons_append, List.nil_append]
  rw [hspan]
  cases before with
  | nil => exact ⟨passed, .whole (e := .token (.action key value)) hw⟩
  | cons b before =>
    refine ⟨(b :: before) :: passed, .late ⟨?_, ?_, ?_⟩ hw⟩
    · refine no_key_of_bindsAt ?_ hb
      intro k v hbk
      exact absurd (hleast [] k v hbk) (Nat.not_succ_le_zero _)
    · intro hc
      have hmem : ']' ∈ '[' :: u := by
        rw [hb.span_eq, List.append_assoc]
        exact List.mem_append_left _ hc
      rcases List.mem_cons.mp hmem with hc | hc
      · exact absurd hc (by decide)
      · exact hu hc
    · rw [← hb.span_eq]
      exact hleast

/-! ## Rules -/

theorem readFrom_of_parts {t : Text} {es : List Event} (h : Parts t es) :
    ∃ passed, ReadFrom t es passed := by
  induction h with
  | nil => exact ⟨[], .nil⟩
  | emptyRule _ ih =>
    obtain ⟨passed, hw⟩ := ih
    exact ⟨passed, .whole (e := .drop .rule ['#', '#']) hw⟩
  | @rule u w key modifiers es _ _ hjoin _ _ ih =>
    obtain ⟨passed, hw⟩ := ih
    have hsource : '#' :: u ++ '#' :: w =
        Event.source (.token (.rule key modifiers)) ++ w := by
      simp only [Event.source, Token.source, Token.reference, hjoin, List.cons_append,
        List.append_assoc, List.nil_append]
    rw [hsource]
    exact ⟨passed, .whole hw⟩
  | action hu hfirst _ ih =>
    obtain ⟨passed, hw⟩ := ih
    exact readFrom_action hu hfirst hw
  | @dropAction u w es _ _ _ ih =>
    obtain ⟨passed, hw⟩ := ih
    have hsource : '[' :: u ++ ']' :: w =
        Event.source (.drop .action ('[' :: u ++ [']'])) ++ w := by
      simp only [Event.source, List.cons_append, List.append_assoc, List.nil_append]
    rw [hsource]
    exact ⟨passed, .whole hw⟩
  | @opener o run w es _ _ _ _ ih =>
    obtain ⟨passed, hw⟩ := ih
    exact ⟨passed, .whole (e := .token (.text (o :: run))) hw⟩
  | @text run w es _ _ _ _ ih =>
    obtain ⟨passed, hw⟩ := ih
    exact ⟨passed, .whole (e := .token (.text run)) hw⟩

/-! ## What is missing -/

theorem Passed.ne_nil {before key value : Text} (h : Passed before key value) : before ≠ [] := by
  rintro rfl
  exact absurd h.no_key (by decide)

/-- The characters are those of the sources and those passed over. -/
theorem ReadFrom.length_eq {t : Text} {es : List Event} {passed : List Text}
    (h : ReadFrom t es passed) :
    t.length = (es.flatMap Event.source).length + passed.flatten.length := by
  induction h with
  | nil => rfl
  | whole _ ih =>
    simp only [List.flatMap_cons, List.length_append]
    omega
  | late _ _ ih =>
    simp only [List.flatMap_cons, List.flatten_cons, List.length_append, Event.source]
    omega

theorem ReadFrom.flatMap_source {t : Text} {es : List Event} (h : ReadFrom t es []) :
    es.flatMap Event.source = t := by
  generalize hp : ([] : List Text) = passed at h
  induction h with
  | nil => rfl
  | whole _ ih => rw [List.flatMap_cons, ih hp]
  | late _ _ _ => cases hp

theorem ReadFrom.eq_nil_of_flatten {t : Text} {es : List Event} {passed : List Text}
    (h : ReadFrom t es passed) (hp : passed.flatten = []) : passed = [] := by
  induction h with
  | nil => rfl
  | whole _ ih => exact ih hp
  | late hb _ _ =>
    rw [List.flatten_cons, List.append_eq_nil_iff] at hp
    exact absurd hp.1 hb.ne_nil

/-- The sources are the whole text exactly if nothing was passed over. -/
theorem ReadFrom.flatMap_source_iff {t : Text} {es : List Event} {passed : List Text}
    (h : ReadFrom t es passed) : es.flatMap Event.source = t ↔ passed = [] := by
  constructor
  · intro ht
    have hlen := h.length_eq
    rw [ht] at hlen
    exact h.eq_nil_of_flatten (List.eq_nil_of_length_eq_zero (by omega))
  · rintro rfl
    exact h.flatMap_source

/-- Something is passed over behind `[:` only. -/
theorem ReadFrom.eq_nil_of_not_infix {t : Text} {es : List Event} {passed : List Text}
    (h : ReadFrom t es passed) (ht : ¬ ['[', ':'] <:+: t) : passed = [] := by
  induction h with
  | nil => rfl
  | whole _ ih => exact ih fun hi => ht (hi.trans (List.suffix_append _ _).isInfix)
  | late hb _ _ =>
    rw [List.append_assoc] at ht
    exact absurd (hb.no_key.trans (List.prefix_append _ _)).isInfix ht

/-- **A rule is written back from its events**, but for what actions pass over
in spans that start with `[:`. -/
theorem readFrom_events (rule : Text) :
    ∃ passed, ReadFrom rule (events rule) passed ∧
      ((events rule).flatMap Event.source = rule ↔ passed = []) ∧
      (¬ ['[', ':'] <:+: rule → passed = []) := by
  obtain ⟨passed, h⟩ := readFrom_of_parts (parts_split rule)
  rw [events_eq_split]
  exact ⟨passed, h, h.flatMap_source_iff, h.eq_nil_of_not_infix⟩

/-- The rule `[:[a:b]` is not written back: its one event is the action
`[a:b]`. -/
theorem source_events_late :
    (events "[:[a:b]".toList).flatMap Event.source ≠ "[:[a:b]".toList := by
  have hevents : events "[:[a:b]".toList = [.token (.action "a".toList "b".toList)] := by
    rw [events_eq_split]
    simp [split, splitFirst, splitSpan]
    rfl
  rw [hevents]
  decide

end TextGrammar.Rule
