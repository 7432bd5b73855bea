/-
# `TextGrammar.Proofs.Rule.Reread` — tokens that are written and read again

A token that is written as its source and read again is itself, whatever rule
it comes from:

    text         no opener in it has a closer, or else it would not be text
    reference    no `#` between the two of it
    action       no `]` before the last one, and its key is the leftmost

What stood in front of a token and behind it does not matter any more, though
it did while the rule was cut.  The action is the case that needs care: its
source may be less than its span, as some of the span may have been passed
over, and its key may hold openers.

The value of an action is a rule as well, and a walk goes into it.  As it has
no `]`, nothing between brackets can be in it, so that the walk goes no
further (`Walked`):

    tokens_reread    each token is read again as it is, a value has neither
                     actions nor drops of them, and every walk ends one level
                     below its rule
-/
import TextGrammar.Proofs.Rule.Source
import TextGrammar.Proofs.Rule.Walk

namespace TextGrammar.Rule

variable {t : Text} {es : List Event}

/-! ## Tokens -/

theorem bindsFirst_source {key value : Text} (hkey : key ≠ []) (hcolon : ':' ∉ key)
    (hvalue : value ≠ []) : BindsFirst ('[' :: (key ++ ':' :: value)) key value :=
  ⟨[], ⟨by simp, hkey, hcolon, hvalue⟩, fun _ _ _ _ => Nat.zero_le _⟩

theorem parts_action_source {u key value : Text} (hu : ']' ∉ u)
    (h : BindsFirst ('[' :: u) key value) :
    Parts (Token.source (.action key value)) [.token (.action key value)] := by
  have hbody := closer_not_mem_binding hu h
  obtain ⟨before, hb, -⟩ := h
  have hparts := Parts.action hbody (bindsFirst_source hb.key_ne hb.colon_not_mem hb.value_ne) .nil
  simpa [Token.source] using hparts

/-- A token alone has itself as its one part. -/
theorem parts_source {token : Token} (h : Parts t es) (hm : .token token ∈ es) :
    Parts token.source [.token token] := by
  induction h with
  | nil => exact absurd hm List.not_mem_nil
  | emptyRule _ ih =>
    rcases List.mem_cons.mp hm with hm | hm
    · cases hm
    · exact ih hm
  | rule hu hhash hjoin hdot _ ih =>
    rcases List.mem_cons.mp hm with hm | hm
    · cases hm
      rw [Token.source, Token.reference, hjoin]
      exact .rule hu hhash hjoin hdot .nil
    · exact ih hm
  | action hu hfirst _ ih =>
    rcases List.mem_cons.mp hm with hm | hm
    · cases hm
      exact parts_action_source hu hfirst
    · exact ih hm
  | dropAction _ _ _ ih =>
    rcases List.mem_cons.mp hm with hm | hm
    · cases hm
    · exact ih hm
  | @opener o run w es ho hrun _ _ ih =>
    rcases List.mem_cons.mp hm with hm | hm
    · cases hm
      -- without a closer in the whole rest there is none in the run
      have ho' : Unclosed o (run ++ []) := by
        rw [List.append_nil]
        exact ho.imp (And.imp_right (mt (List.mem_append_left w)))
          (And.imp_right (mt (List.mem_append_left w)))
      have hparts := Parts.opener ho' hrun (by intro x hx; cases hx) .nil
      rwa [List.append_nil] at hparts
    · exact ih hm
  | text hne hrun _ _ ih =>
    rcases List.mem_cons.mp hm with hm | hm
    · cases hm
      have hparts := Parts.text hne hrun (by intro x hx; cases hx) .nil
      rwa [List.append_nil] at hparts
    · exact ih hm

theorem events_source {rule : Text} {token : Token} (h : token ∈ tokens rule) :
    events token.source = [.token token] := by
  rw [mem_tokens_iff, events_eq_split] at h
  exact events_eq_iff_parts.mpr (parts_source (parts_split rule) h)

/-! ## Walks -/

/-- What is met by going through events, and behind each action through those
of its value, at most so many levels down. -/
inductive Walked : Nat → List Event → List Event → Prop
  | nil {n : Nat} : Walked n [] []
  | passed {n : Nat} {e : Event} {es met : List Event} :
      (∀ key value, e ≠ .token (.action key value)) → Walked n es met →
        Walked n (e :: es) (e :: met)
  | entered {n : Nat} {key value : Text} {below es met : List Event} :
      Walked n (events value) below → Walked (n + 1) es met →
        Walked (n + 1) (.token (.action key value) :: es)
          (.token (.action key value) :: below ++ met)

theorem follow_of_ne_action {e : Event} (h : ∀ key value, e ≠ .token (.action key value)) :
    follow e = [e] := by
  cases e with
  | drop kind span => rfl
  | token t =>
    cases t with
    | text value => rfl
    | rule key modifiers => rfl
    | action key value => exact absurd rfl (h key value)

/-- Without actions there is nothing to go into. -/
theorem walked_of_no_action (n : Nat) (h : ∀ key value, .token (.action key value) ∉ es) :
    Walked n es (es.flatMap follow) := by
  induction es with
  | nil => exact .nil
  | cons e es ih =>
    have he : ∀ key value, e ≠ .token (.action key value) := by
      rintro key value rfl
      exact h key value List.mem_cons_self
    rw [List.flatMap_cons, follow_of_ne_action he]
    exact .passed he (ih fun key value hm => h key value (List.mem_cons_of_mem e hm))

theorem walked_of_values {n : Nat}
    (h : ∀ key value, .token (.action key value) ∈ es → Walked n (events value) (walk value)) :
    Walked (n + 1) es (es.flatMap follow) := by
  induction es with
  | nil => exact .nil
  | cons e es ih =>
    have hrest := ih fun key value hm => h key value (List.mem_cons_of_mem e hm)
    rw [List.flatMap_cons]
    by_cases he : ∃ key value, e = .token (.action key value)
    · obtain ⟨key, value, rfl⟩ := he
      exact .entered (h key value List.mem_cons_self) hrest
    · have he' : ∀ key value, e ≠ .token (.action key value) := fun key value heq =>
        he ⟨key, value, heq⟩
      rw [follow_of_ne_action he']
      exact .passed he' hrest

theorem walked_value {rule key value : Text} (h : .token (.action key value) ∈ events rule)
    (n : Nat) : Walked n (events value) (walk value) := by
  rw [walk_eq_flatMap]
  exact walked_of_no_action n fun _ _ hm => not_bracketed_of_mem_value h hm trivial

/-- **Each token of a rule is read again as it is**, and a walk of the rule
goes into the values of its actions and no further. -/
theorem tokens_reread (rule : Text) :
    (∀ token ∈ tokens rule, events token.source = [.token token]) ∧
    (∀ key value, .action key value ∈ tokens rule → ∀ e ∈ events value, ¬ Bracketed e) ∧
    Walked 1 (events rule) (walk rule) := by
  refine ⟨fun token h => events_source h, fun key value h e he => ?_, ?_⟩
  · exact not_bracketed_of_mem_value (mem_tokens_iff.mp h) he
  · rw [walk_eq_flatMap]
    exact walked_of_values fun key value h => walked_value h 0

/-- The key `#[k` holds two openers, and the value `[v#w` two more. -/
theorem tokens_reread_openers :
    .action "#[k".toList "[v#w".toList ∈ tokens "#a..b#[:[#[k:[v#w]".toList ∧
    events "[#[k:[v#w]".toList = [.token (.action "#[k".toList "[v#w".toList)] ∧
    ∀ e ∈ events "[v#w".toList, ¬ Bracketed e := by
  have hmem : .action "#[k".toList "[v#w".toList ∈ tokens "#a..b#[:[#[k:[v#w]".toList := by
    rw [mem_tokens_iff, events_eq_split]
    simp [split, splitFirst, splitSpan]
    decide
  obtain ⟨hsource, hvalue, -⟩ := tokens_reread "#a..b#[:[#[k:[v#w]".toList
  exact ⟨hmem, hsource _ hmem, hvalue _ _ hmem⟩

end TextGrammar.Rule
