/-
# `TextGrammar.Proofs.Expansion.Unknown` — references to nothing

A reference to a symbol that is not bound is output as it is written.  Bound
are the symbols of the grammar, and the keys of the actions in front of the
reference; an action behind it comes too late.  An origin whose references are
all unbound (`Unbound`) is expanded without a draw:

    expand_unbound    the tokens as they are written, but for the actions

A token is written as it was read: a reference has its key and its modifiers
joined again at the dots, and an opener without a closer is text.  So nothing
of the origin is lost but its actions and the spans that are dropped, and an
origin that has neither comes back as it is.
-/
import TextGrammar.Proofs.Assoc.Entries
import TextGrammar.Proofs.Expansion.Recursion
import TextGrammar.Proofs.Rule.Source
import TextGrammar.Proofs.Rule.Walk

namespace TextGrammar

/-- What a token leaves in the output when nothing is expanded. -/
def Token.shown : Token → Text
  | .text value => value
  | .rule key modifiers => reference key modifiers
  | .action _ _ => []

namespace Rule

/-! ## Rules without actions and drops -/

/-- Only actions pass something over. -/
theorem ReadFrom.eq_nil_of_no_action {t : Text} {es : List Event} {passed : List Text}
    (h : ReadFrom t es passed) (hact : ∀ k v, .token (.action k v) ∉ es) : passed = [] := by
  induction h with
  | nil => rfl
  | whole _ ih => exact ih fun k v hm => hact k v (List.mem_cons_of_mem _ hm)
  | late _ _ _ => exact absurd List.mem_cons_self (hact _ _)

/-- Events that are texts and references are the tokens, and each is shown as
its source. -/
theorem flatMap_shown_eq_source {es : List Event} (hact : ∀ k v, .token (.action k v) ∉ es)
    (hdrop : ∀ kind span, .drop kind span ∉ es) :
    (es.filterMap Event.token?).flatMap Token.shown = es.flatMap Event.source := by
  induction es with
  | nil => rfl
  | cons e es ih =>
    have hrest := ih (fun k v hm => hact k v (List.mem_cons_of_mem _ hm))
      (fun kind span hm => hdrop kind span (List.mem_cons_of_mem _ hm))
    cases e with
    | drop kind span => exact absurd List.mem_cons_self (hdrop kind span)
    | token t =>
      have hshown : t.shown = t.source := by
        cases t with
        | text value => rfl
        | rule key modifiers => rfl
        | action key value => exact absurd List.mem_cons_self (hact key value)
      show t.shown ++ (es.filterMap Event.token?).flatMap Token.shown =
        t.source ++ es.flatMap Event.source
      rw [hshown, hrest]

/-- A rule without actions and drops is shown as it is. -/
theorem flatMap_shown_tokens {rule : Text} (hact : ∀ k v, .action k v ∉ tokens rule)
    (hdrop : ∀ kind span, .drop kind span ∉ events rule) :
    (tokens rule).flatMap Token.shown = rule := by
  have hact' : ∀ k v, .token (.action k v) ∉ events rule :=
    fun k v hm => hact k v (mem_tokens_iff.mpr hm)
  obtain ⟨passed, hread, hsource, -⟩ := readFrom_events rule
  rw [tokens, flatMap_shown_eq_source hact' hdrop]
  exact hsource.mpr (hread.eq_nil_of_no_action hact')

end Rule

namespace Expansion

variable {σ : Type} {m : Grammar} {ts : List Token}

/-! ## Tokens whose references are unbound -/

/-- No reference is to a symbol that is bound, by the grammar or by an action in
front of it. -/
def Unbound (m : Grammar) (ts : List Token) : Prop :=
  ∀ before key names after, ts = before ++ .rule key names :: after →
    key ∉ m.keys ∧ ∀ value, .action key value ∉ before

theorem unbound_nil (m : Grammar) : Unbound m [] := by
  intro before key names after h
  exact absurd h (by simp)

/-- A token in front has to be no reference to a symbol of the grammar, and no
action that binds what is referred to behind it. -/
theorem unbound_cons_iff {t : Token} :
    Unbound m (t :: ts) ↔ (∀ key names, t = .rule key names → key ∉ m.keys) ∧ Unbound m ts ∧
      ∀ key names, .rule key names ∈ ts → ∀ value, t ≠ .action key value := by
  constructor
  · intro h
    refine ⟨?_, ?_, ?_⟩
    · rintro key names rfl
      exact (h [] key names ts rfl).1
    · intro before key names after hts
      obtain ⟨hkey, hbefore⟩ := h (t :: before) key names after (congrArg _ hts)
      exact ⟨hkey, fun value hv => hbefore value (List.mem_cons_of_mem _ hv)⟩
    · rintro key names hmem value rfl
      obtain ⟨before, after, hts⟩ := List.append_of_mem hmem
      exact (h (_ :: before) key names after (congrArg _ hts)).2 value List.mem_cons_self
  · rintro ⟨hfirst, hrest, hact⟩ before key names after hts
    cases before with
    | nil => exact ⟨hfirst key names (List.cons.inj hts).1, fun value => List.not_mem_nil⟩
    | cons t' before =>
      obtain ⟨rfl, rfl⟩ := List.cons.inj hts
      obtain ⟨hkey, hbefore⟩ := hrest before key names after rfl
      refine ⟨hkey, fun value hv => ?_⟩
      rcases List.mem_cons.mp hv with hv | hv
      · exact hact key names (List.mem_append_right _ List.mem_cons_self) value hv.symm
      · exact hbefore value hv

/-- A symbol may be bound that is not referred to. -/
theorem Unbound.insert {key : Text} (h : Unbound m ts) (hkey : ∀ names, .rule key names ∉ ts)
    (value : Text) : Unbound (m.insert key [value]) ts := by
  intro before key' names after hts
  obtain ⟨hkey', hbefore⟩ := h before key' names after hts
  refine ⟨?_, hbefore⟩
  rw [Assoc.mem_keys_insert_iff, not_or]
  refine ⟨?_, hkey'⟩
  rintro rfl
  apply hkey names
  rw [hts]
  exact List.mem_append_right _ List.mem_cons_self

/-! ## Nothing is drawn -/

/-- The rendering leaves the store as it was, but for what actions bind. -/
theorem render_unbound_tokens (c : Setting σ) (ts : List Token) (s : Store σ)
    (h : Unbound s.symbols ts) :
    ∃ m, render c ts s = ⟨ts.flatMap Token.shown, { s with symbols := m }⟩ := by
  induction ts generalizing s with
  | nil => exact ⟨s.symbols, render_nil c s⟩
  | cons t ts ih =>
    obtain ⟨hfirst, hrest, hact⟩ := unbound_cons_iff.mp h
    cases t with
    | text value =>
      obtain ⟨m, hm⟩ := ih s hrest
      exact ⟨m, by rw [render_text, hm]; rfl⟩
    | action key value =>
      have hkey : ∀ names, .rule key names ∉ ts := fun names hm => hact key names hm value rfl
      obtain ⟨m, hm⟩ := ih (s.bind key value) (hrest.insert hkey value)
      exact ⟨m, by rw [render_action, hm]; rfl⟩
    | rule key names =>
      have hkey := Assoc.get?_eq_none_iff.mpr (hfirst key names rfl)
      obtain ⟨m, hm⟩ := ih s hrest
      exact ⟨m, by rw [render_unbound c hkey, hm]; rfl⟩

/-- **References to nothing are output as they are written**, and nothing is
drawn for them.  An origin of texts and such references alone is its own
expansion. -/
theorem expand_unbound {g : Grammar} {origin : Text} (h : Unbound g (Rule.tokens origin))
    (c : Setting σ) (source : σ) :
    let r := expand c g origin source
    r.text = (Rule.tokens origin).flatMap Token.shown ∧ r.store.draws = 0 ∧
      r.store.source = source ∧ r.store.notices = [] ∧
      ((∀ key value, .action key value ∉ Rule.tokens origin) →
        (∀ kind span, .drop kind span ∉ Rule.events origin) → r.text = origin) := by
  intro r
  obtain ⟨m, hm⟩ := render_unbound_tokens c (Rule.tokens origin) (Store.init g source) h
  have hr : r = ⟨(Rule.tokens origin).flatMap Token.shown, ⟨m, 1, 0, source, []⟩⟩ :=
    (expand_eq_render c g origin source).trans hm
  rw [hr]
  exact ⟨rfl, rfl, rfl, rfl, fun hact hdrop => Rule.flatMap_shown_tokens hact hdrop⟩

/-- A reference in front of the action that binds its key, a drop and a key
without characters; and an origin of openers that comes back as it is. -/
theorem expand_unbound_late :
    let g : Grammar := [("b".toList, ["owl".toList])]
    let c : Setting Unit := ⟨.english, fun u => (.finite false 0 0, u)⟩
    let origin := "#a.s#[a:#b#]##[#..#".toList
    let whole := "[#.#a [#a#".toList
    let r := expand c g origin ()
    let r' := expand c g whole ()
    Unbound g (Rule.tokens origin) ∧ r.text = "#a.s#[#..#".toList ∧ r.store.draws = 0 ∧
      Unbound g (Rule.tokens whole) ∧ (∀ key value, .action key value ∉ Rule.tokens whole) ∧
      (∀ kind span, .drop kind span ∉ Rule.events whole) ∧ r'.text = whole := by
  intro g c origin whole r r'
  have htokens : Rule.tokens origin = [.rule "a".toList ["s".toList],
      .action "a".toList "#b#".toList, .text "[".toList, .rule [] [[], []]] := by
    simp [origin, Rule.tokens_eq_split, Rule.split, Rule.splitFirst, Rule.splitSpan, Rule.isPlain,
      isOpener]
    rfl
  have hevents : Rule.events whole = [.token (.text "[".toList), .token (.rule [] [[]]),
      .token (.text "a ".toList), .token (.text "[".toList), .token (.rule "a".toList [])] := by
    simp [whole, Rule.events_eq_split, Rule.split, Rule.splitFirst, Rule.splitSpan, Rule.isPlain,
      isOpener]
    exact ⟨rfl, rfl⟩
  have hwhole : Rule.tokens whole = [.text "[".toList, .rule [] [[]], .text "a ".toList,
      .text "[".toList, .rule "a".toList []] := by
    rw [Rule.tokens, hevents]
    rfl
  have hlate : Unbound g (Rule.tokens origin) := by
    simp [htokens, unbound_cons_iff, unbound_nil, g, Assoc.keys]
  have hnone : Unbound g (Rule.tokens whole) := by
    simp [hwhole, unbound_cons_iff, unbound_nil, g, Assoc.keys]
  have hact : ∀ key value, .action key value ∉ Rule.tokens whole := by simp [hwhole]
  have hdrop : ∀ kind span, .drop kind span ∉ Rule.events whole := by simp [hevents]
  obtain ⟨htext, hdraws, -⟩ := expand_unbound hlate c ()
  obtain ⟨-, -, -, -, hback⟩ := expand_unbound hnone c ()
  rw [htokens] at htext
  exact ⟨hlate, htext, hdraws, hnone, hact, hdrop, hback hact hdrop⟩

end Expansion

end TextGrammar
