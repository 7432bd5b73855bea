/-
# `TextGrammar.Proofs.Lint.Degradation` — what goes wrong in a run was reported

Expansion does not fail, it degrades: it writes a reference as it stands,
passes over a modifier, draws from an empty list, drops an action.  These are
the incidents of a run (`Happens`), each at the passage in which it happens.
`lint` looks at the rules of the grammar and the origin, and never expands
anything.  The main statement is that it misses no incident:

    happens_reported    an incident of any run at a passage is reported at the
                        site the passage comes from

with one exception that the linter makes on purpose.  A symbol that some
action binds counts as defined, and a run may refer to it before that action
is read.
-/
import TextGrammar.Proofs.Expansion.Trail
import TextGrammar.Proofs.Lint.Report

namespace TextGrammar.Lint

open Expansion

/-! ## Incidents of a run -/

/-- What can go wrong without a failure. -/
inductive Incident where
  | verbatim (key : Text) (names : List Text)
  | ignoredModifier (name : Text)
  | emptyChoice (key : Text)
  | droppedAction (span : Text)
deriving DecidableEq, Repr

variable {σ : Type}

/-- In some run state the next step has an incident, in the passage given.
Modifiers are applied when a text ends, to what a reference in the text
around it gave, or at once behind the ceiling.  A text is cut into tokens
when its frame is opened: the origin at the beginning, a candidate below the
ceiling when it is drawn. -/
inductive Happens (c : Setting σ) (g : Grammar) (origin : Text) (source : σ) :
    Passage → Incident → Prop
  | verbatim {s : State σ} {t : Trail} {key : Text} {names : List Text} {rest : List Token} :
      Run c g origin source s t → s.frame.pending = .rule key names :: rest →
      s.store.symbols.get? key = none →
      Happens c g origin source t.current (.verbatim key names)
  | emptyChoice {s : State σ} {t : Trail} {key : Text} {names : List Text} {rest : List Token} :
      Run c g origin source s t → s.frame.pending = .rule key names :: rest →
      s.store.symbols.get? key = some [] →
      Happens c g origin source t.current (.emptyChoice key)
  | ignoredAtEnd {s : State σ} {t : Trail} {name : Text} :
      Run c g origin source s t → s.frame.pending = [] →
      name ∈ s.frame.modifiers → c.modifiers.contains name = false →
      Happens c g origin source t.around (.ignoredModifier name)
  | ignoredAtCeiling {s : State σ} {t : Trail} {key name : Text} {names candidates : List Text}
      {rest : List Token} :
      Run c g origin source s t → s.frame.pending = .rule key names :: rest →
      s.store.symbols.get? key = some candidates → ¬ s.store.depth < ceiling →
      name ∈ names → c.modifiers.contains name = false →
      Happens c g origin source t.current (.ignoredModifier name)
  | droppedInOrigin {span : Text} :
      .drop .action span ∈ Rule.events origin →
      Happens c g origin source (.ofSite (originSite origin)) (.droppedAction span)
  | droppedInCandidate {s : State σ} {t : Trail} {key span : Text}
      {names candidates : List Text} {rest : List Token} :
      Run c g origin source s t → s.frame.pending = .rule key names :: rest →
      s.store.symbols.get? key = some candidates → s.store.depth < ceiling →
      .drop .action span ∈ Rule.events (s.store.pick c.draw key candidates).1 →
      Happens c g origin source (t.next c s).current (.droppedAction span)

/-- A diagnostic is located at a site. -/
def At (d : Diagnostic) (site : Site) : Prop :=
  d.symbol = site.symbol ∧ d.index = site.index.map Int.ofNat

/-- What the report on a grammar has to say about an incident at a site. -/
def Reported (g : Grammar) (origin : Text) (r : Registry) (file : Option Text) (site : Site) :
    Incident → Prop
  | .verbatim key names =>
    (∃ site' ∈ sites g origin, ∃ value, .action key value ∈ Rule.tokens site'.rule) ∨
    ∃ d ∈ lint g origin (some r) file, d.code = "L_UNKNOWN_SYMBOL".toList ∧
      Token.reference key names <:+ d.message ∧ At d site
  | .ignoredModifier name =>
    ∃ d ∈ lint g origin (some r) file, d.code = "L_UNKNOWN_MODIFIER".toList ∧
      (∃ reference, (Finding.unknownModifier name reference).message <:+ d.message) ∧ At d site
  | .emptyChoice key =>
    ∃ d ∈ lint g origin (some r) file, d.code = "L_EMPTY_SYMBOL".toList ∧ d.symbol = some key
  | .droppedAction span =>
    ∃ d ∈ lint g origin (some r) file, d.code = "L_DROPPED_ACTION".toList ∧
      (Finding.droppedAction span).message <:+ d.message ∧ At d site

/-! ## Every incident is reported -/

variable {c : Setting σ} {g : Grammar} {origin : Text} {source : σ} {file : Option Text}

theorem mem_walk_of_comesFrom {p : Passage} {e : Event} (hp : p.ComesFrom g origin)
    (he : e ∈ Rule.events p.text) : e ∈ Rule.walk p.site.rule := by
  rw [Rule.mem_walk_iff]
  rcases hp.text_eq with htext | ⟨key, hkey⟩
  · exact .inl (htext ▸ he)
  · exact .inr ⟨key, p.text, Rule.mem_tokens_iff.mp hkey, Rule.mem_walk_iff.mpr (.inl he)⟩

/-- A finding at an event of a passage is reported where the passage comes
from. -/
theorem diagnostic_of_comesFrom {p : Passage} {e : Event} {f : Finding} {r : Registry}
    (hp : p.ComesFrom g origin) (he : e ∈ Rule.events p.text)
    (hf : f ∈ eventFindings (defined g origin) (some r) e) (file : Option Text) :
    ∃ d ∈ lint g origin (some r) file, d.code = f.code ∧ f.message <:+ d.message ∧
      At d p.site :=
  ⟨p.site.diagnostic file f, diagnostic_mem_lint hp.site_mem (mem_walk_of_comesFrom hp he) hf,
    rfl, List.suffix_append _ _, rfl, rfl⟩

/-- The token in front of the current frame stands in the current passage. -/
theorem rule_of_pending {s : State σ} {t : Trail} {key : Text} {names : List Text}
    {rest : List Token} (h : Follows g origin s t)
    (hp : s.frame.pending = .rule key names :: rest) :
    t.current.ComesFrom g origin ∧ .token (.rule key names) ∈ Rule.events t.current.text := by
  have htok : .rule key names ∈ Rule.tokens t.current.text :=
    h.stacked.pending_subset (hp ▸ List.mem_cons_self)
  exact ⟨comesFrom_of_token (h.grounded _ List.mem_cons_self) htok, Rule.mem_tokens_iff.mp htok⟩

theorem reported_verbatim {s : State σ} {t : Trail} {key : Text} {names : List Text}
    {rest : List Token} (h : Follows g origin s t)
    (hp : s.frame.pending = .rule key names :: rest) (hk : s.store.symbols.get? key = none)
    (r : Registry) : Reported g origin r file t.current.site (.verbatim key names) := by
  obtain ⟨hcomes, hevent⟩ := rule_of_pending h hp
  have hkeys : key ∉ g.keys := by
    rw [← Assoc.get?_eq_none_iff]
    rcases h.given_or_bound key with hg | ⟨value, hv⟩
    · exact hg.symm.trans hk
    · rw [hk] at hv
      cases hv
  by_cases hdef : key ∈ defined g origin
  · exact .inl (action_of_defined hdef hkeys)
  · obtain ⟨d, hd, hcode, hmsg, hat⟩ :=
      diagnostic_of_comesFrom hcomes hevent (unknownSymbol_mem_findings hdef) file
    exact .inr ⟨d, hd, hcode, (List.suffix_append _ _).trans hmsg, hat⟩

theorem reported_ignoredModifier {p : Passage} {key name : Text} {names : List Text}
    {r : Registry} (hp : p.ComesFrom g origin)
    (he : .token (.rule key names) ∈ Rule.events p.text) (hn : name ∈ names)
    (hr : r.contains name = false) :
    Reported g origin r file p.site (.ignoredModifier name) := by
  obtain ⟨d, hd, hcode, hmsg, hat⟩ :=
    diagnostic_of_comesFrom hp he (unknownModifier_mem_findings hn hr) file
  exact ⟨d, hd, hcode, ⟨_, hmsg⟩, hat⟩

/-- The modifiers that wait for the end of a text are those of a reference in
the text around it. -/
theorem rule_of_modifiers {s : State σ} {t : Trail} {name : Text} (h : Follows g origin s t)
    (hn : name ∈ s.frame.modifiers) :
    t.around.ComesFrom g origin ∧
      ∃ key, .token (.rule key s.frame.modifiers) ∈ Rule.events t.around.text := by
  rcases h.stacked.modifiers_cases with hnil | ⟨p, ps, key, hout, hrule⟩
  · rw [hnil] at hn
    exact absurd hn List.not_mem_nil
  · have hp := h.grounded p (hout ▸ List.mem_cons_of_mem _ List.mem_cons_self)
    rw [Trail.around, hout, List.headD_cons]
    exact ⟨comesFrom_of_token hp hrule, key, Rule.mem_tokens_iff.mp hrule⟩

theorem reported_emptyChoice {s : State σ} {t : Trail} {key : Text} (h : Follows g origin s t)
    (hk : s.store.symbols.get? key = some []) (r : Registry) (site : Site) :
    Reported g origin r file site (.emptyChoice key) := by
  have hg : g.get? key = some [] := by
    rcases h.given_or_bound key with hg | ⟨value, hv⟩
    · exact hg.symm.trans hk
    · rw [hk] at hv
      cases hv
  exact ⟨_, emptySymbol_mem_lint (Assoc.mem_of_get? hg), rfl, rfl⟩

theorem reported_droppedAction {p : Passage} {span : Text} (hp : p.ComesFrom g origin)
    (he : .drop .action span ∈ Rule.events p.text) (r : Registry) :
    Reported g origin r file p.site (.droppedAction span) :=
  diagnostic_of_comesFrom hp he List.mem_cons_self file

theorem comesFrom_of_drop {p : Passage} {kind : SpanKind} {span : Text}
    (hp : p.Grounded g origin) (he : .drop kind span ∈ Rule.events p.text) :
    p.ComesFrom g origin := by
  rcases hp with hnil | hp
  · -- the empty text has no events, and so no drops
    rw [hnil, Rule.events_eq_split, Rule.split_nil] at he
    exact absurd he List.not_mem_nil
  · exact hp

/-- **The linter misses no incident.**  Whatever goes wrong in a run goes
wrong in a passage that comes from the origin or from a candidate of the
grammar, directly or as the value of an action of theirs, and is reported at
that place. -/
theorem happens_reported {p : Passage} {i : Incident} (h : Happens c g origin source p i)
    (file : Option Text) :
    p.ComesFrom g origin ∧ Reported g origin c.modifiers file p.site i := by
  cases h with
  | verbatim hrun hp hk =>
    have hf := follows_of_run hrun
    exact ⟨(rule_of_pending hf hp).1, reported_verbatim hf hp hk c.modifiers⟩
  | emptyChoice hrun hp hk =>
    have hf := follows_of_run hrun
    exact ⟨(rule_of_pending hf hp).1, reported_emptyChoice hf hk c.modifiers _⟩
  | ignoredAtEnd hrun _ hn hr =>
    obtain ⟨hcomes, key, hevent⟩ := rule_of_modifiers (follows_of_run hrun) hn
    exact ⟨hcomes, reported_ignoredModifier hcomes hevent hn hr⟩
  | ignoredAtCeiling hrun hp _ _ hn hr =>
    obtain ⟨hcomes, hevent⟩ := rule_of_pending (follows_of_run hrun) hp
    exact ⟨hcomes, reported_ignoredModifier hcomes hevent hn hr⟩
  | droppedInOrigin hdrop =>
    have hcomes : Passage.ComesFrom (.ofSite (originSite origin)) g origin :=
      ⟨List.mem_cons_self, .inl rfl⟩
    exact ⟨hcomes, reported_droppedAction hcomes hdrop c.modifiers⟩
  | @droppedInCandidate s t key span names candidates rest hrun hp hk hd hdrop =>
    have hf := follows_of_run hrun
    obtain ⟨ps, hps, htexts⟩ := hf.bindings_get? hk
    obtain ⟨hchosen, htext⟩ := hf.chosen (c := c) hps htexts
    rw [← htext] at hdrop
    have hcomes := comesFrom_of_drop hchosen hdrop
    have hnext : (t.next c s).current =
        Passage.choose (c.draw s.store.source).1 t.current ps := by
      simp only [Trail.next, hp, hps, if_pos hd]
    rw [hnext]
    exact ⟨hcomes, reported_droppedAction hcomes hdrop c.modifiers⟩

/-! The value of an action is read after its rule, and elsewhere.  In `#a#`
with the one candidate `[b:#c#]#b#` for `a`, the unbound `c` turns up in the
third text, and is reported at that candidate. -/

/-- No modifiers, and always the first candidate. -/
def firstOnly : Setting Unit := ⟨[], fun u => (.finite false 0 0, u)⟩

/-- One candidate, with an unbound reference in an action. -/
def deferring : Grammar := [("a".toList, ["[b:#c#]#b#".toList])]

/-- The value of that action. -/
def deferred : Passage := ⟨⟨some "a".toList, some 0, "[b:#c#]#b#".toList⟩, "#c#".toList⟩

theorem happens_reported_deferred :
    Happens firstOnly deferring "#a#".toList () deferred (.verbatim "c".toList []) ∧
      deferred.ComesFrom deferring "#a#".toList ∧
      Reported deferring "#a#".toList [] none deferred.site (.verbatim "c".toList []) := by
  have horigin : Rule.tokens "#a#".toList = [.rule "a".toList []] := by
    simp [Rule.tokens_eq_split, Rule.split, Rule.splitFirst, Rule.splitSpan]
    rfl
  have hcandidate : Rule.tokens (Choice.candidate (.finite false 0 0) ["[b:#c#]#b#".toList]) =
      [.action "b".toList "#c#".toList, .rule "b".toList []] := by
    have hdraw : Choice.candidate (.finite false 0 0) ["[b:#c#]#b#".toList] =
        "[b:#c#]#b#".toList := by decide +kernel
    rw [hdraw]
    simp [Rule.tokens_eq_split, Rule.split, Rule.splitFirst, Rule.splitSpan]
    rfl
  have hvalue : Rule.tokens (Choice.candidate (.finite false 0 0) ["#c#".toList]) =
      [.rule "c".toList []] := by
    have hdraw : Choice.candidate (.finite false 0 0) ["#c#".toList] = "#c#".toList := by
      decide +kernel
    rw [hdraw]
    simp [Rule.tokens_eq_split, Rule.split, Rule.splitFirst, Rule.splitSpan]
    rfl
  have h₁ : (State.init deferring "#a#".toList ()).step firstOnly =
      .more ⟨⟨deferring, 2, 1, (), []⟩,
        ⟨[.action "b".toList "#c#".toList, .rule "b".toList []], [], []⟩, [⟨[], [], []⟩]⟩ := by
    rw [← hcandidate, State.init, Frame.ofText, horigin]
    rfl
  have h₃ : State.step firstOnly ⟨(Store.mk deferring 2 1 () []).bind "b".toList "#c#".toList,
      ⟨[.rule "b".toList []], [], []⟩, [⟨[], [], []⟩]⟩ =
      .more ⟨⟨deferring.insert "b".toList ["#c#".toList], 3, 2, (), []⟩,
        ⟨[.rule "c".toList []], [], []⟩, [⟨[], [], []⟩, ⟨[], [], []⟩]⟩ := by
    rw [← hvalue]
    rfl
  have hrun := ((Run.start.step h₁).step (step_of_move .action)).step h₃
  have h : Happens firstOnly deferring "#a#".toList () deferred (.verbatim "c".toList []) := by
    refine (?_ : Trail.current _ = deferred) ▸ Happens.verbatim hrun rfl rfl
    rw [State.init, Frame.ofText, horigin]
    decide +kernel
  exact ⟨h, happens_reported h none⟩

end TextGrammar.Lint
