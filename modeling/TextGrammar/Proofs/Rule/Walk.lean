/-
# `TextGrammar.Proofs.Rule.Walk` — what a walk meets

`Rule.walk` goes into the values of actions, and into the actions of those
values, and so on.  It does not get far: a value ends before the first `]`,
and an action needs one, so a value has no actions
(`action_not_mem_events_value`).  Hence the walk of a rule meets the events
of the rule and the events of its values, and every action it meets is one
of the rule itself.
-/
import TextGrammar.Proofs.Rule.Parts
import TextGrammar.Rule.Walk

namespace TextGrammar.Rule

/-! ## Tokens and events -/

theorem mem_filterMap_token? {es : List Event} {t : Token} :
    t ∈ es.filterMap Event.token? ↔ .token t ∈ es := by
  rw [List.mem_filterMap]
  constructor
  · rintro ⟨e, he, ht⟩
    cases e with
    | token t' =>
      rw [Event.token?, Option.some.injEq] at ht
      exact ht ▸ he
    | drop kind span => cases ht
  · intro h
    exact ⟨.token t, h, rfl⟩

theorem mem_tokens_iff {rule : Text} {t : Token} : t ∈ tokens rule ↔ .token t ∈ events rule :=
  mem_filterMap_token?

theorem tokens_eq_split (rule : Text) : tokens rule = (split rule).filterMap Event.token? := by
  rw [tokens, events_eq_split]

theorem tokens_nil : tokens [] = [] := by
  rw [tokens_eq_split, split_nil]
  rfl

theorem tokens_of_parts {t : Text} {es : List Event} (h : Parts t es) :
    tokens t = es.filterMap Event.token? := by
  rw [tokens_eq_split, split_of_parts h]

/-- Plain text up to an opener is one token. -/
theorem tokens_plain_append {run w : Text} (hne : run ≠ []) (hrun : Plain run)
    (hw : AtOpener w) : tokens (run ++ w) = .text run :: tokens w := by
  rw [tokens_of_parts (.text hne hrun hw (parts_split w)), tokens_eq_split]
  rfl

/-- A reference that is written is read as it is. -/
theorem tokens_reference_append {key : Text} {names : List Text} (hkey : key ≠ [])
    (hhash : ∀ f ∈ key :: names, '#' ∉ f) (hdot : ∀ f ∈ key :: names, '.' ∉ f) (w : Text) :
    tokens (Token.reference key names ++ w) = .rule key names :: tokens w := by
  have hbody : '#' ∉ Text.join ['.'] (key :: names) := by
    intro hm
    rcases Text.mem_join hm with hm | ⟨f, hf, hm⟩
    · exact absurd hm (by decide)
    · exact hhash f hf hm
  have hne : Text.join ['.'] (key :: names) ≠ [] := Text.join_ne_nil hkey
  rw [Token.reference, List.append_assoc, List.singleton_append,
    tokens_of_parts (.rule hne hbody rfl hdot (parts_split w)), tokens_eq_split]
  rfl

theorem mem_walkTokens_iff {rule : Text} {t : Token} :
    t ∈ walkTokens rule ↔ .token t ∈ walk rule :=
  mem_filterMap_token?

/-! ## One level of a walk -/

/-- An event, and behind an action what a walk of its value meets. -/
def follow : Event → List Event
  | .token (.action key value) => .token (.action key value) :: walk value
  | e => [e]

theorem walk_eq_flatMap (rule : Text) : walk rule = (events rule).flatMap follow := by
  conv => rhs; rw [← List.attach_map_subtype_val (events rule), List.flatMap_map]
  rw [walk]
  refine congrArg (List.flatMap · _) (funext ?_)
  rintro ⟨e, he⟩
  cases e with
  | drop kind span => rfl
  | token t => cases t <;> rfl

theorem mem_follow_iff {e e' : Event} :
    e ∈ follow e' ↔ e = e' ∨ ∃ key value, e' = .token (.action key value) ∧ e ∈ walk value := by
  cases e' with
  | drop kind span => simp [follow]
  | token t =>
    cases t with
    | text v => simp [follow]
    | rule k names => simp [follow]
    | action k v => simp [follow, and_assoc]

/-- What a walk meets: an event of the rule, or of a value bound in it. -/
theorem mem_walk_iff {rule : Text} {e : Event} :
    e ∈ walk rule ↔ e ∈ events rule ∨
      ∃ key value, .token (.action key value) ∈ events rule ∧ e ∈ walk value := by
  rw [walk_eq_flatMap, List.mem_flatMap]
  constructor
  · rintro ⟨e', he', h⟩
    rcases mem_follow_iff.mp h with rfl | ⟨key, value, rfl, hw⟩
    · exact .inl he'
    · exact .inr ⟨key, value, he', hw⟩
  · rintro (h | ⟨key, value, h, hw⟩)
    · exact ⟨e, h, mem_follow_iff.mpr (.inl rfl)⟩
    · exact ⟨_, h, mem_follow_iff.mpr (.inr ⟨key, value, rfl, hw⟩)⟩

/-! ## Values have no actions -/

/-- An event of a span between brackets: an action, or the drop of one. -/
def Bracketed : Event → Prop
  | .token (.action _ _) => True
  | .drop .action _ => True
  | _ => False

/-- Nothing is between brackets without a closer. -/
theorem closer_of_bracketed_mem {t : Text} {es : List Event} {e : Event} (h : Parts t es)
    (he : Bracketed e) (hm : e ∈ es) : ']' ∈ t := by
  induction h with
  | nil => exact absurd hm List.not_mem_nil
  | emptyRule _ ih =>
    rcases List.mem_cons.mp hm with rfl | hm
    · exact he.elim
    · exact List.mem_cons_of_mem _ (List.mem_cons_of_mem _ (ih hm))
  | rule _ _ _ _ _ ih =>
    rcases List.mem_cons.mp hm with rfl | hm
    · exact he.elim
    · exact List.mem_append_right _ (List.mem_cons_of_mem _ (ih hm))
  | action _ _ _ _ => exact List.mem_append_right _ List.mem_cons_self
  | dropAction _ _ _ _ => exact List.mem_append_right _ List.mem_cons_self
  | opener _ _ _ _ ih =>
    rcases List.mem_cons.mp hm with rfl | hm
    · exact he.elim
    · exact List.mem_append_right _ (ih hm)
  | text _ _ _ _ ih =>
    rcases List.mem_cons.mp hm with rfl | hm
    · exact he.elim
    · exact List.mem_append_right _ (ih hm)

/-- The key and the value of an action are in front of the closer. -/
theorem closer_not_mem_binding {u key value : Text} (hu : ']' ∉ u)
    (h : BindsFirst ('[' :: u) key value) : ']' ∉ key ++ ':' :: value := by
  obtain ⟨before, hb, -⟩ := h
  intro hm
  have hspan : ']' ∈ '[' :: u := by
    rw [hb.span_eq, List.append_assoc]
    exact List.mem_append_right before (List.mem_cons_of_mem '[' hm)
  exact (List.mem_cons.mp hspan).elim (by decide) hu

theorem closer_not_mem_value {t key value : Text} {es : List Event} (h : Parts t es)
    (hm : .token (.action key value) ∈ es) : ']' ∉ value := by
  induction h with
  | nil => exact absurd hm List.not_mem_nil
  | emptyRule _ ih => exact ih ((List.mem_cons.mp hm).resolve_left (by simp))
  | rule _ _ _ _ _ ih => exact ih ((List.mem_cons.mp hm).resolve_left (by simp))
  | dropAction _ _ _ ih => exact ih ((List.mem_cons.mp hm).resolve_left (by simp))
  | opener _ _ _ _ ih => exact ih ((List.mem_cons.mp hm).resolve_left (by simp))
  | text _ _ _ _ ih => exact ih ((List.mem_cons.mp hm).resolve_left (by simp))
  | action hu hfirst _ ih =>
    rcases List.mem_cons.mp hm with hm | hm
    · cases hm
      have hbinding := closer_not_mem_binding hu hfirst
      exact fun hv => hbinding (List.mem_append_right key (List.mem_cons_of_mem ':' hv))
    · exact ih hm

/-- Nothing in the value of an action is between brackets. -/
theorem not_bracketed_of_mem_value {rule key value : Text} {e : Event}
    (h : .token (.action key value) ∈ events rule) (he : e ∈ events value) : ¬ Bracketed e := by
  intro hb
  rw [events_eq_split] at h he
  exact closer_not_mem_value (parts_split rule) h (closer_of_bracketed_mem (parts_split value) hb he)

/-- The value of an action has no actions. -/
theorem action_not_mem_events_value {rule key value key' value' : Text}
    (h : .token (.action key value) ∈ events rule) :
    .token (.action key' value') ∉ events value :=
  fun h' => not_bracketed_of_mem_value h h' trivial

/-- Every action that a walk meets is one of the rule itself. -/
theorem action_mem_events_of_mem_walk {rule key value : Text}
    (h : .token (.action key value) ∈ walk rule) :
    .token (.action key value) ∈ events rule := by
  rcases mem_walk_iff.mp h with h | ⟨k, v, hkv, h⟩
  · exact h
  · exfalso
    rcases mem_walk_iff.mp h with h | ⟨k', v', hkv', -⟩
    · exact action_not_mem_events_value hkv h
    · exact action_not_mem_events_value hkv hkv'

end TextGrammar.Rule
