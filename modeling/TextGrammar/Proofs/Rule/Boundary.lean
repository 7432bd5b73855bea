/-
# `TextGrammar.Proofs.Rule.Boundary` — rules written one behind the other

Two rules that are written one behind the other are one rule.  It is cut as
each of them alone unless something in the first waits for what comes behind
it.  Two things wait: text at the end goes on with text behind it, and an
opener without a closer may get one.

    `a`      and `b`    the text `ab`, not the texts `a` and `b`
    `[#a#`   and `]`    a span that is dropped, where `[` and `#a#` were

A rule is closed if neither occurs in it.  The scan looks for a closer through
the whole rest and reads again when there is none, but behind a closed rule
this does not reach back:

    closed_iff_events_append    Closed x ↔
                                  ∀ y, events (x ++ y) = events x ++ events y

No weaker condition would do, for behind every other rule there is something
that is cut otherwise: a letter if it ends with text, and else the closer of
its first opener without one.
-/
import TextGrammar.Proofs.Rule.Walk

namespace TextGrammar.Rule

/-! ## Closed rules -/

/-- Text is not the last of the events, and none of it starts with an
opener. -/
structure Sealed (es : List Event) : Prop where
  ends : ∀ v, es.getLast? ≠ some (.token (.text v))
  paired : ∀ v, .token (.text v) ∈ es → ∀ o ∈ v.head?, o ≠ '#' ∧ o ≠ '['

/-- The rule is empty or ends with a reference, an action or a drop, and every
opener in it has its closer. -/
def Closed (x : Text) : Prop := Sealed (events x)

variable {es : List Event}

theorem sealed_nil : Sealed [] where
  ends := nofun
  paired := nofun

theorem sealed_cons_iff {e : Event} (he : ∀ v, e ≠ .token (.text v)) :
    Sealed (e :: es) ↔ Sealed es := by
  constructor
  · intro h
    refine ⟨fun v hv => ?_, fun v hv => h.paired v (List.mem_cons_of_mem e hv)⟩
    apply h.ends v
    rw [List.getLast?_cons, hv]
    rfl
  · intro h
    refine ⟨fun v hv => ?_, fun v hv => ?_⟩
    · rw [List.getLast?_cons, Option.some.injEq] at hv
      cases hlast : es.getLast? with
      | none =>
        rw [hlast] at hv
        exact he v hv
      | some e' =>
        rw [hlast, Option.getD_some] at hv
        exact h.ends v (hv ▸ hlast)
    · rcases List.mem_cons.mp hv with hv | hv
      · exact absurd hv.symm (he v)
      · exact h.paired v hv

theorem sealed_text_cons_iff {v : Text} :
    Sealed (.token (.text v) :: es) ↔
      es ≠ [] ∧ (∀ o ∈ v.head?, o ≠ '#' ∧ o ≠ '[') ∧ Sealed es := by
  constructor
  · intro h
    have hne : es ≠ [] := by
      rintro rfl
      exact h.ends v rfl
    refine ⟨hne, h.paired v List.mem_cons_self, fun v' hv' => ?_, fun v' hv' => ?_⟩
    · apply h.ends v'
      rw [List.getLast?_cons, hv']
      rfl
    · exact h.paired v' (List.mem_cons_of_mem _ hv')
  · rintro ⟨hne, hv, h⟩
    refine ⟨fun v' hv' => ?_, fun v' hv' => ?_⟩
    · rw [List.getLast?_cons_of_ne_nil hne] at hv'
      exact h.ends v' hv'
    · rcases List.mem_cons.mp hv' with hv' | hv'
      · cases hv'
        exact hv
      · exact h.paired v' hv'

theorem ruleEvent_ne_text {span v : Text} : ruleEvent span ≠ .token (.text v) := by
  intro h
  rw [ruleEvent] at h
  split at h
  · cases h
  · split at h
    · cases h
    · cases h

theorem actionEvent_ne_text {span v : Text} : actionEvent span ≠ .token (.text v) := by
  intro h
  rw [actionEvent] at h
  split at h
  · cases h
  · cases h

/-! ## Behind a closed rule -/

theorem parts_append {x y : Text} {fs : List Event} (hx : Parts x es) (h : Sealed es)
    (hy : Parts y fs) : Parts (x ++ y) (es ++ fs) := by
  induction hx with
  | nil => exact hy
  | emptyRule _ ih =>
    rw [sealed_cons_iff (by exact nofun)] at h
    exact .emptyRule (ih h)
  | rule hu hhash hjoin hdot _ ih =>
    rw [sealed_cons_iff (by exact nofun)] at h
    rw [List.append_assoc]
    exact .rule hu hhash hjoin hdot (ih h)
  | action hu hfirst _ ih =>
    rw [sealed_cons_iff (by exact nofun)] at h
    rw [List.append_assoc]
    exact .action hu hfirst (ih h)
  | dropAction hu hno _ ih =>
    rw [sealed_cons_iff (by exact nofun)] at h
    rw [List.append_assoc]
    exact .dropAction hu hno (ih h)
  | opener ho _ _ _ _ =>
    -- the text would start with an opener
    obtain ⟨-, hopener, -⟩ := sealed_text_cons_iff.mp h
    obtain ⟨hhash, hbracket⟩ := hopener _ rfl
    rcases ho with ⟨rfl, -⟩ | ⟨rfl, -⟩
    · exact absurd rfl hhash
    · exact absurd rfl hbracket
  | @text run w es hne hrun hw hparts ih =>
    obtain ⟨hes, -, h⟩ := sealed_text_cons_iff.mp h
    -- something comes behind the text, so that it ends there still
    cases w with
    | nil => exact absurd (split_of_parts hparts ▸ split_nil) hes
    | cons o w =>
      rw [List.append_assoc]
      exact .text hne hrun hw (ih h)

theorem events_append {x : Text} (h : Closed x) (y : Text) :
    events (x ++ y) = events x ++ events y := by
  rw [Closed, events_eq_split] at h
  rw [events_eq_split, events_eq_split, events_eq_split]
  exact split_of_parts (parts_append (parts_split x) h (parts_split y))

theorem tokens_append {x : Text} (h : Closed x) (y : Text) :
    tokens (x ++ y) = tokens x ++ tokens y := by
  rw [tokens, events_append h, List.filterMap_append]
  rfl

/-! ## Behind any other rule -/

/-- The closer of an opener in front makes a span of everything. -/
theorem split_closed_ne {o : Char} {t : Text} (h : Unclosed o t) (es : List Event) (v : Text) :
    ∃ y, split (o :: t ++ y) ≠ .token (.text v) :: es ++ split y := by
  rcases h with ⟨rfl, hhash⟩ | ⟨rfl, hbracket⟩
  · refine ⟨['#'], ?_⟩
    rw [List.cons_append, split_rule hhash]
    intro heq
    exact ruleEvent_ne_text (List.cons.inj heq).1
  · refine ⟨[']'], ?_⟩
    rw [List.cons_append, split_action hbracket]
    intro heq
    exact actionEvent_ne_text (List.cons.inj heq).1

/-- A letter behind text belongs to it. -/
theorem split_text_letter {run : Text} (hrun : Plain run) :
    split (run ++ ['a']) ≠ [.token (.text run)] ++ split ['a'] := by
  have hletter : Plain ['a'] := ⟨by decide, by decide⟩
  have hboth : Plain (run ++ ['a']) := by
    constructor
    · exact fun hm => (List.mem_append.mp hm).elim hrun.1 hletter.1
    · exact fun hm => (List.mem_append.mp hm).elim hrun.2 hletter.2
  have hone := Parts.text (w := []) (by simp) hboth (by exact nofun) .nil
  rw [List.append_nil] at hone
  rw [split_of_parts hone]
  intro heq
  have htext := (List.cons.inj heq).1
  simp at htext

/-- Where the first event ends in the same place whatever comes behind, the
rest of the rule decides. -/
theorem exists_append_ne_of_rest {t w : Text} {e : Event}
    (hfirst : ∀ y, (split (t ++ y)).tail = split (w ++ y))
    (hrest : ∃ y, split (w ++ y) ≠ es ++ split y) :
    ∃ y, split (t ++ y) ≠ e :: es ++ split y := by
  obtain ⟨y, hy⟩ := hrest
  refine ⟨y, fun heq => hy ?_⟩
  rw [← hfirst, heq]
  rfl

theorem exists_split_append_ne {x : Text} (hx : Parts x es) (h : ¬ Sealed es) :
    ∃ y, split (x ++ y) ≠ es ++ split y := by
  induction hx with
  | nil => exact absurd sealed_nil h
  | emptyRule _ ih =>
    rw [sealed_cons_iff (by exact nofun)] at h
    refine exists_append_ne_of_rest (fun y => ?_) (ih h)
    exact congrArg List.tail (split_rule (u := []) List.not_mem_nil)
  | rule _ hhash _ _ _ ih =>
    rw [sealed_cons_iff (by exact nofun)] at h
    refine exists_append_ne_of_rest (fun y => ?_) (ih h)
    rw [List.append_assoc]
    exact congrArg List.tail (split_rule hhash)
  | action hu _ _ ih =>
    rw [sealed_cons_iff (by exact nofun)] at h
    refine exists_append_ne_of_rest (fun y => ?_) (ih h)
    rw [List.append_assoc]
    exact congrArg List.tail (split_action hu)
  | dropAction hu _ _ ih =>
    rw [sealed_cons_iff (by exact nofun)] at h
    refine exists_append_ne_of_rest (fun y => ?_) (ih h)
    rw [List.append_assoc]
    exact congrArg List.tail (split_action hu)
  | opener ho _ _ _ _ => exact split_closed_ne ho _ _
  | @text run w es hne hrun hw hparts ih =>
    have hsplit := split_of_parts hparts
    cases w with
    | nil =>
      rw [← hsplit, split_nil, List.append_nil]
      exact ⟨['a'], split_text_letter hrun⟩
    | cons o w =>
      have hes : es ≠ [] := by
        rw [← hsplit, split]
        exact List.cons_ne_nil _ _
      have hstart : ∀ c ∈ run.head?, c ≠ '#' ∧ c ≠ '[' := fun c hc =>
        isPlain_eq_true_iff.mp (plain_iff.mp hrun c (List.mem_of_mem_head? hc))
      have hopen : ¬ Sealed es := fun hs => h (sealed_text_cons_iff.mpr ⟨hes, hstart, hs⟩)
      refine exists_append_ne_of_rest (fun y => ?_) (ih hopen)
      have htext : Parts (run ++ (o :: w ++ y)) (.token (.text run) :: split (o :: w ++ y)) :=
        .text hne hrun hw (parts_split _)
      rw [List.append_assoc]
      exact congrArg List.tail (split_of_parts htext)

/-- **A rule is cut apart from what comes behind it exactly if it is closed.** -/
theorem closed_iff_events_append {x : Text} :
    Closed x ↔ ∀ y, events (x ++ y) = events x ++ events y := by
  refine ⟨events_append, fun h => Classical.byContradiction fun hx => ?_⟩
  rw [Closed, events_eq_split] at hx
  obtain ⟨y, hy⟩ := exists_split_append_ne (parts_split x) hx
  have happend := h y
  rw [events_eq_split, events_eq_split, events_eq_split] at happend
  exact hy happend

end TextGrammar.Rule
