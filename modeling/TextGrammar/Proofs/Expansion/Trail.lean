/-
# `TextGrammar.Proofs.Expansion.Trail` — where the texts of a run come from

A text under expansion is the origin, a candidate of the grammar, or the
value of an action that stood in a text under expansion.  By the time it is
read its symbol may have been bound anew, so that the store does not tell
which.  A trail goes along with a run and keeps the place of every text: of
the candidates each symbol is bound to now, of the text that is read, and of
the texts around it.  It follows the steps of the machine and has no part in
them (`Run`).

The place of a text is a site, the origin or a candidate with its number.
The main statement is that the trail tells the truth (`follows_of_run`): a
text that is read at a site is the rule of that site or the value of an
action of that rule.  Values of values do not occur, because values have no
actions.
-/
import TextGrammar.Grammar.Lint
import TextGrammar.Proofs.Assoc
import TextGrammar.Proofs.Expansion.Choice
import TextGrammar.Proofs.Expansion.Move
import TextGrammar.Proofs.Rule.Walk

namespace TextGrammar.Expansion

open Lint (Site sites candidateSites)

/-! ## Trails -/

/-- A text of an expansion, and the site it comes from. -/
structure Passage where
  site : Site
  text : Text
deriving DecidableEq, Repr

/-- The places of the texts of a state. -/
structure Trail where
  bindings : Assoc Text (List Passage)
  current : Passage
  outer : List Passage

/-- The text around the current one, or the current one if that is the
origin. -/
def Trail.around (t : Trail) : Passage := t.outer.headD t.current

/-- The origin as a site. -/
def originSite (origin : Text) : Site := ⟨none, none, origin⟩

/-- The whole rule of a site. -/
def Passage.ofSite (site : Site) : Passage := ⟨site, site.rule⟩

/-- The passage that a number chooses.  Outside the list nothing is chosen,
and the empty text in its stead belongs where it is asked for. -/
def Passage.choose (x : Binary64) (home : Passage) (ps : List Passage) : Passage :=
  match Choice.choose x ps with
  | .ok (some p) => p
  | _ => ⟨home.site, []⟩

/-- The places at the beginning. -/
def Trail.init (g : Grammar) (origin : Text) : Trail where
  bindings := g.map fun (k, candidates) => (k, (candidateSites k 0 candidates).map .ofSite)
  current := .ofSite (originSite origin)
  outer := []

variable {σ : Type} {c : Setting σ} {g : Grammar} {origin : Text} {source : σ}

/-- The places behind the next step. -/
def Trail.next (c : Setting σ) (s : State σ) (t : Trail) : Trail :=
  match s.frame.pending with
  | [] => ⟨t.bindings, t.around, t.outer.tail⟩
  | .text _ :: _ => t
  | .action key value :: _ =>
    { t with bindings := t.bindings.insert key [⟨t.current.site, value⟩] }
  | .rule key _ :: _ =>
    match t.bindings.get? key with
    | none => t
    | some ps =>
      if s.store.depth < ceiling then
        ⟨t.bindings, .choose (c.draw s.store.source).1 t.current ps, t.current :: t.outer⟩
      else t

/-- The states of a run, each with its trail. -/
inductive Run (c : Setting σ) (g : Grammar) (origin : Text) (source : σ) :
    State σ → Trail → Prop
  | start : Run c g origin source (.init g origin source) (.init g origin)
  | step {s s' : State σ} {t : Trail} :
      Run c g origin source s t → s.step c = .more s' → Run c g origin source s' (t.next c s)

/-! ## What a passage may be -/

/-- The text is the rule of its site or a value bound in that rule. -/
structure Passage.ComesFrom (p : Passage) (g : Grammar) (origin : Text) : Prop where
  site_mem : p.site ∈ sites g origin
  text_eq : p.text = p.site.rule ∨ ∃ key, .action key p.text ∈ Rule.tokens p.site.rule

/-- The same, unless the text is empty because nothing was chosen. -/
def Passage.Grounded (p : Passage) (g : Grammar) (origin : Text) : Prop :=
  p.text = [] ∨ p.ComesFrom g origin

theorem comesFrom_of_token {p : Passage} {t : Token} (hp : p.Grounded g origin)
    (ht : t ∈ Rule.tokens p.text) : p.ComesFrom g origin := by
  rcases hp with hnil | hp
  · rw [hnil, Rule.tokens_nil] at ht
    exact absurd ht List.not_mem_nil
  · exact hp

/-- A value bound in a passage comes from the site of the passage. -/
theorem comesFrom_value {p : Passage} {key value : Text} (hp : p.Grounded g origin)
    (ht : .action key value ∈ Rule.tokens p.text) :
    Passage.ComesFrom ⟨p.site, value⟩ g origin := by
  obtain ⟨hsite, htext⟩ := comesFrom_of_token hp ht
  refine ⟨hsite, .inr ⟨key, ?_⟩⟩
  rcases htext with htext | ⟨key', hkey'⟩
  · exact htext ▸ ht
  · -- the passage is a value itself, and a value has no actions
    rw [Rule.mem_tokens_iff] at ht hkey'
    exact absurd ht (Rule.action_not_mem_events_value hkey')

theorem map_rule_candidateSites (symbol : Text) :
    ∀ (i : Nat) (candidates : List Text),
      (candidateSites symbol i candidates).map Site.rule = candidates
  | _, [] => rfl
  | i, rule :: rest => by
    rw [candidateSites, List.map_cons, map_rule_candidateSites symbol (i + 1) rest]

/-! ## Choosing a passage -/

theorem text_choose (x : Binary64) (home : Passage) (ps : List Passage) :
    (Passage.choose x home ps).text = Choice.candidate x (ps.map Passage.text) := by
  rw [Passage.choose, Choice.candidate, Choice.choose_map]
  cases Choice.choose x ps with
  | error e => rfl
  | ok p => cases p <;> rfl

theorem choose_cases (x : Binary64) (home : Passage) (ps : List Passage) :
    Passage.choose x home ps ∈ ps ∨ (Passage.choose x home ps).text = [] := by
  rw [Passage.choose]
  split
  · next h => exact .inl (Choice.mem_of_choose h)
  · exact .inr rfl

/-! ## The trail follows the run -/

/-- Each frame reads tokens of its passage.  The outermost one has no
modifiers; any other has those of a reference in the passage around it. -/
inductive Stacked : List Frame → List Passage → Prop
  | origin {f : Frame} {p : Passage} :
      f.pending ⊆ Rule.tokens p.text → f.modifiers = [] → Stacked [f] [p]
  | nested {f f' : Frame} {p p' : Passage} {fs : List Frame} {ps : List Passage} {key : Text} :
      f.pending ⊆ Rule.tokens p.text → .rule key f.modifiers ∈ Rule.tokens p'.text →
      Stacked (f' :: fs) (p' :: ps) → Stacked (f :: f' :: fs) (p :: p' :: ps)

theorem Stacked.pending_subset {f : Frame} {p : Passage} {fs : List Frame} {ps : List Passage}
    (h : Stacked (f :: fs) (p :: ps)) : f.pending ⊆ Rule.tokens p.text := by
  cases h with
  | origin hp _ => exact hp
  | nested hp _ _ => exact hp

/-- The innermost frame may go on, as long as it keeps its modifiers. -/
theorem Stacked.set_pending {f f' : Frame} {p : Passage} {fs : List Frame} {ps : List Passage}
    (h : Stacked (f :: fs) (p :: ps)) (hp : f'.pending ⊆ f.pending)
    (hm : f'.modifiers = f.modifiers) : Stacked (f' :: fs) (p :: ps) := by
  cases h with
  | origin hs hn => exact .origin (List.Subset.trans hp hs) (hm.trans hn)
  | nested hs hn ht => exact .nested (List.Subset.trans hp hs) (hm ▸ hn) ht

theorem Stacked.modifiers_cases {f : Frame} {p : Passage} {fs : List Frame} {ps : List Passage}
    (h : Stacked (f :: fs) (p :: ps)) :
    f.modifiers = [] ∨
      ∃ q qs key, ps = q :: qs ∧ .rule key f.modifiers ∈ Rule.tokens q.text := by
  cases h with
  | origin _ hn => exact .inl hn
  | nested _ hn _ => exact .inr ⟨_, _, _, rfl, hn⟩

/-- What holds of a state and its trail throughout a run. -/
structure Follows (g : Grammar) (origin : Text) (s : State σ) (t : Trail) : Prop where
  symbols_eq : s.store.symbols = t.bindings.mapValues (·.map Passage.text)
  stacked : Stacked (s.frame :: s.waiting) (t.current :: t.outer)
  grounded : ∀ p ∈ t.current :: t.outer, p.Grounded g origin
  bound : ∀ e ∈ t.bindings, ∀ p ∈ e.2, p.Grounded g origin
  given_or_bound : ∀ key, s.store.symbols.get? key = g.get? key ∨
    ∃ value, s.store.symbols.get? key = some [value]

theorem follows_init : Follows g origin (State.init g origin source) (Trail.init g origin) where
  symbols_eq := by
    rw [Assoc.mapValues, Trail.init, List.map_map]
    refine ((List.map_congr_left ?_).trans (List.map_id g)).symm
    intro e _
    have hrules := map_rule_candidateSites e.1 0 e.2
    show (e.1, ((candidateSites e.1 0 e.2).map Passage.ofSite).map Passage.text) = e
    rw [List.map_map, show Passage.text ∘ Passage.ofSite = Site.rule from rfl, hrules]
  stacked := .origin (List.Subset.refl _) rfl
  grounded := by
    intro p hp
    rw [List.mem_singleton.mp hp]
    exact .inr ⟨List.mem_cons_self, .inl rfl⟩
  bound := by
    intro e he p hp
    obtain ⟨⟨k, candidates⟩, hg, rfl⟩ := List.mem_map.mp he
    obtain ⟨site, hsite, rfl⟩ := List.mem_map.mp hp
    exact .inr ⟨List.mem_cons_of_mem _ (List.mem_flatMap.mpr ⟨_, hg, hsite⟩), .inl rfl⟩
  given_or_bound := fun _ => .inl rfl

theorem Follows.bindings_get? {s : State σ} {t : Trail} (h : Follows g origin s t) {key : Text}
    {candidates : List Text} (hk : s.store.symbols.get? key = some candidates) :
    ∃ ps, t.bindings.get? key = some ps ∧ ps.map Passage.text = candidates := by
  rw [h.symbols_eq, Assoc.get?_mapValues, Option.map_eq_some_iff] at hk
  exact hk

theorem Follows.bindings_get?_eq_none {s : State σ} {t : Trail} (h : Follows g origin s t)
    {key : Text} (hk : s.store.symbols.get? key = none) : t.bindings.get? key = none := by
  rw [h.symbols_eq, Assoc.get?_mapValues, Option.map_eq_none_iff] at hk
  exact hk

/-- The passage that a draw leads to is grounded and has the text drawn. -/
theorem Follows.chosen {s : State σ} {t : Trail} (h : Follows g origin s t) {key : Text}
    {candidates : List Text} {ps : List Passage} (hk : t.bindings.get? key = some ps)
    (hps : ps.map Passage.text = candidates) :
    let p := Passage.choose (c.draw s.store.source).1 t.current ps
    p.Grounded g origin ∧ p.text = (s.store.pick c.draw key candidates).1 := by
  refine ⟨?_, ?_⟩
  · rcases choose_cases (c.draw s.store.source).1 t.current ps with hp | hp
    · exact h.bound _ (Assoc.mem_of_get? hk) _ hp
    · exact .inl hp
  · rw [text_choose, hps]
    rfl

theorem Follows.advance {s s' : State σ} {t : Trail} (h : Follows g origin s t)
    (hsym : s'.store.symbols = s.store.symbols) (hp : s'.frame.pending ⊆ s.frame.pending)
    (hn : s'.frame.modifiers = s.frame.modifiers) (hw : s'.waiting = s.waiting) :
    Follows g origin s' t where
  symbols_eq := hsym.trans h.symbols_eq
  stacked := by
    rw [hw]
    exact h.stacked.set_pending hp hn
  grounded := h.grounded
  bound := h.bound
  given_or_bound := by
    rw [hsym]
    exact h.given_or_bound

/-- An action binds its symbol to a value of the current site. -/
theorem Follows.bind {s : Store σ} {k v out : Text} {ts : List Token} {ns : List Text}
    {fs : List Frame} {t : Trail}
    (h : Follows g origin ⟨s, ⟨.action k v :: ts, ns, out⟩, fs⟩ t) :
    Follows g origin ⟨s.bind k v, ⟨ts, ns, out⟩, fs⟩
      { t with bindings := t.bindings.insert k [⟨t.current.site, v⟩] } where
  symbols_eq := by
    show s.symbols.insert k [v] = _
    have hsym : s.symbols = t.bindings.mapValues (·.map Passage.text) := h.symbols_eq
    rw [hsym]
    exact Assoc.insert_mapValues _ t.bindings k [⟨t.current.site, v⟩]
  stacked := h.stacked.set_pending (List.subset_cons_self _ _) rfl
  grounded := h.grounded
  bound := by
    intro e he p hp
    rcases Assoc.mem_insert he with he | he
    · rw [he, List.mem_singleton] at hp
      rw [hp]
      exact .inr (comesFrom_value (h.grounded _ List.mem_cons_self)
        (h.stacked.pending_subset List.mem_cons_self))
    · exact h.bound e he p hp
  given_or_bound := by
    intro key
    have hget := Assoc.get?_insert s.symbols k key [v]
    split at hget
    · exact .inr ⟨v, hget⟩
    · rcases h.given_or_bound key with hg | ⟨value, hv⟩
      · exact .inl (hget.trans hg)
      · exact .inr ⟨value, hget.trans hv⟩

theorem Follows.move {s s' : State σ} {t : Trail} (h : Follows g origin s t) (hm : Move c s s') :
    Follows g origin s' (t.next c s) := by
  cases hm with
  | text => exact h.advance rfl (List.subset_cons_self _ _) rfl rfl
  | action => exact h.bind
  | unbound hk =>
    simp only [Trail.next, h.bindings_get?_eq_none hk]
    exact h.advance rfl (List.subset_cons_self _ _) rfl rfl
  | flat hk hd =>
    obtain ⟨ps, hps, -⟩ := h.bindings_get? hk
    simp only [Trail.next, hps, if_neg hd]
    exact h.advance rfl (List.subset_cons_self _ _) rfl rfl
  | deeper hk hd =>
    obtain ⟨ps, hps, htexts⟩ := h.bindings_get? hk
    obtain ⟨hchosen, htext⟩ := h.chosen (c := c) hps htexts
    simp only [Trail.next, hps, if_pos hd]
    refine ⟨h.symbols_eq, ?_, ?_, h.bound, h.given_or_bound⟩
    · refine .nested ?_ (h.stacked.pending_subset List.mem_cons_self)
        (h.stacked.set_pending (List.subset_cons_self _ _) rfl)
      rw [htext]
      exact List.Subset.refl _
    · intro p hp
      rcases List.mem_cons.mp hp with rfl | hp
      · exact hchosen
      · exact h.grounded p hp
  | close =>
    -- as many frames wait as passages are around, so there is one to go back to
    have hstacked := h.stacked
    have hgrounded := h.grounded
    cases hout : t.outer with
    | nil =>
      rw [hout] at hstacked
      cases hstacked
    | cons p ps =>
      rw [hout] at hstacked hgrounded
      simp only [Trail.next, Trail.around, hout, List.headD_cons, List.tail_cons]
      refine ⟨h.symbols_eq, ?_, ?_, h.bound, h.given_or_bound⟩
      · cases hstacked with
        | nested _ _ hrest => exact hrest.set_pending (List.Subset.refl _) rfl
      · exact fun q hq => hgrounded q (List.mem_cons_of_mem _ hq)

/-- The trail follows the run in every state. -/
theorem follows_of_run {s : State σ} {t : Trail} (h : Run c g origin source s t) :
    Follows g origin s t := by
  induction h with
  | start => exact follows_init
  | step _ hstep ih => exact ih.move (move_of_step hstep)

end TextGrammar.Expansion
