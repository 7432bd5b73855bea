/-
# `TextGrammar.Proofs.Cli.Repetition` — expansions that are repeated

One source serves many expansions: those of one origin again and again, and
those of different grammars and origins.  Each takes from it what it draws and
leaves the rest, and neither a binding nor a level goes from one to the next.

    expand_uses_draws_alone    the numbers drawn decide what an expansion
                               gives; several in a row are as many on their
                               own; and more results begin with fewer

The last follows from the one before it: with the same seed the source begins
in the same state, so that the first results do not depend on how many are
asked for.
-/
import TextGrammar.Proofs.Cli.Grammar
import TextGrammar.Proofs.Expansion.Draws
import TextGrammar.Proofs.Expansion.Recursion

namespace TextGrammar.Cli

open Expansion (Setting expand expandAll drawsOf)

/-! ## Results of a run -/

/-- The run writes these results in the format that is asked for. -/
structure Writes (o : ExpandOptions) (texts : List Text) (outcome : Outcome) : Prop where
  exit : outcome.exit = 0
  crash : outcome.crash = none
  out : outcome.out =
    if o.format = "json".toList then .report (expandReport o texts)
    else .text (texts.flatMap fun t => Text.withoutSequences t ++ ['\n'])

/-- The options with another number of results. -/
def ExpandOptions.times (o : ExpandOptions) (n : Nat) : ExpandOptions := { o with count := n }

theorem writes_expandWith (o : ExpandOptions) (g : Grammar) (r : Registry) (source : Twister) :
    Writes o ((expansions o g r source).map (·.text)) (expandWith o g r source).2 := by
  rw [expandWith]
  by_cases hjson : o.format = "json".toList
  · rw [if_pos hjson]
    exact ⟨rfl, rfl, (if_pos hjson).symm⟩
  · rw [if_neg hjson]
    exact ⟨rfl, rfl, (if_neg hjson).symm⟩

theorem Writes.precededBy {o : ExpandOptions} {texts : List Text} {outcome : Outcome}
    (h : Writes o texts outcome) (logs : List Text) : Writes o texts (outcome.precededBy logs) :=
  ⟨h.exit, h.crash, h.out⟩

/-- With a grammar and modifiers the results of all expansions are written. -/
theorem writes_runExpand {tree : FileTree} {o : ExpandOptions} {g : Grammar} {r : Registry}
    (hformat : isFormat o.format = true) (hg : (grammarAt tree o.path).2 = .ok g)
    (hr : expandModifiers tree o = .ok r) (ambient : Twister) :
    let source := (o.seed.map fun t => (Seed.text t).generator).getD ambient
    Writes o ((expansions o g r source).map (·.text)) (runExpand tree ambient o) := by
  intro source
  have hwrites := writes_expandWith o g r source
  rw [runExpand]
  simp only [hformat, hg, hr, Bool.not_true, Bool.false_eq_true, if_false]
  split
  · exact hwrites.precededBy _
  · exact hwrites

/-- Fewer expansions are the first ones of more. -/
theorem expansions_times {n m : Nat} (h : n ≤ m) (o : ExpandOptions) (g : Grammar) (r : Registry)
    (source : Twister) :
    expansions (o.times n) g r source = (expansions (o.times m) g r source).take n := by
  rw [expansions, expansions, Expansion.take_expandAll, ExpandOptions.times, ExpandOptions.times,
    List.take_replicate, Nat.min_eq_left h]

theorem length_expansions_times (o : ExpandOptions) (n : Nat) (g : Grammar) (r : Registry)
    (source : Twister) : (expansions (o.times n) g r source).length = n := by
  rw [expansions, Expansion.length_expandAll, List.length_replicate]
  rfl

/-! ## What expansions share -/

/-- **Expansions use a source through the numbers they draw, and do not
interfere.** -/
theorem expand_uses_draws_alone {σ τ : Type} {c : Setting σ} {c' : Setting τ}
    (hmods : c'.modifiers = c.modifiers) :
    (∀ g origin source source',
      let r := expand c g origin source
      let r' := expand c' g origin source'
      Source.take c.draw r.store.draws source = Source.take c'.draw r.store.draws source' →
        r'.text = r.text ∧ r'.store.draws = r.store.draws ∧
          r'.store.notices = r.store.notices) ∧
    (∀ calls source i,
      let rs := expandAll c calls source
      rs[i]? = calls[i]?.map fun call =>
        expand c call.1 call.2 (Source.advance c.draw (drawsOf (rs.take i)) source)) ∧
    ∀ tree o g r seed, isFormat o.format = true → (grammarAt tree o.path).2 = .ok g →
      expandModifiers tree o = .ok r → o.seed = some seed → ∀ n m, n ≤ m →
        ∃ texts : List Text, texts.length = m ∧
          (∀ ambient, Writes (o.times m) texts (runExpand tree ambient (o.times m))) ∧
          ∀ ambient, Writes (o.times n) (texts.take n) (runExpand tree ambient (o.times n)) := by
  refine ⟨?_, fun calls source i => Expansion.getElem?_expandAll c calls source i, ?_⟩
  · intro g origin source source' r r' h
    obtain ⟨y, hy⟩ := Expansion.expand_withSource hmods h
    have hr' : r' = r.withSource y := hy
    rw [hr']
    exact ⟨rfl, rfl, rfl⟩
  · intro tree o g r seed hformat hg hr hseed n m hnm
    have hsource : ∀ ambient, (o.seed.map fun t => (Seed.text t).generator).getD ambient =
        (Seed.text seed).generator := by
      intro ambient
      rw [hseed]
      rfl
    have hwrites : ∀ k ambient, Writes (o.times k)
        ((expansions (o.times k) g r (Seed.text seed).generator).map (·.text))
        (runExpand tree ambient (o.times k)) := by
      intro k ambient
      rw [← hsource ambient]
      exact writes_runExpand (o := o.times k) hformat hg hr ambient
    refine ⟨_, ?_, hwrites m, fun ambient => ?_⟩
    · rw [List.length_map, length_expansions_times]
    · rw [← List.map_take, ← expansions_times hnm]
      exact hwrites n ambient

/-- A source that goes on in another way behind the one draw that is made, a
binding that is not there for the next call, and two results of three. -/
theorem expand_uses_draws_alone_once :
    let zero := Binary64.ofInt 0
    let one := Binary64.ofInt 1
    let c : Setting Unit := ⟨.english, Source.constant zero⟩
    let c' : Setting (List Binary64) := ⟨.english, Source.cycle [zero, one]⟩
    let g : Grammar := [("b".toList, ["owl".toList])]
    let r := expand c g "#b#".toList ()
    let r' := expand c' g "#b#".toList [zero, one]
    let rs := expandAll c [(g, "[b:cat]#b#".toList), (g, "#b#".toList)] ()
    let tree := oneFile "a: [b, c]\n".toList
    let o : ExpandOptions := ⟨"g.yaml".toList, "#a#".toList, some "seed".toList, 1, none, false,
      "text".toList, false⟩
    let run := runExpand tree (Twister.ofKey (List.toArray [7]))
    (r.store.draws = 1 ∧ Source.take c.draw 1 () = Source.take c'.draw 1 [zero, one] ∧
      Source.take c.draw 2 () ≠ Source.take c'.draw 2 [zero, one] ∧ r'.text = r.text) ∧
      rs[1]? = some (expand c g "#b#".toList
        (Source.advance c.draw (drawsOf (rs.take 1)) ())) ∧
      ∃ texts : List Text, texts.length = 3 ∧ Writes (o.times 3) texts (run (o.times 3)) ∧
        Writes (o.times 2) (texts.take 2) (run (o.times 2)) := by
  intro zero one c c' g r r' rs tree o run
  have hr : r = ⟨"owl".toList, ⟨g, 2, 1, (), []⟩⟩ := by
    have htokens : Rule.tokens "#b#".toList = [.rule "b".toList []] := by
      simp [Rule.tokens_eq_split, Rule.split, Rule.splitFirst, Rule.splitSpan]
      rfl
    have howl : Rule.tokens "owl".toList = [.text "owl".toList] := by
      simp [Rule.tokens_eq_split, Rule.split, Rule.splitFirst, Rule.isPlain, isOpener]
      rfl
    have hk : (Expansion.Store.init g ()).symbols.get? "b".toList = some ["owl".toList] := rfl
    show expand c g "#b#".toList () = _
    rw [Expansion.expand_eq_render, htokens, Expansion.render_below c hk (by decide)]
    show (Expansion.render c [] (Expansion.render c (Rule.tokens "owl".toList) _).store).prepend
      (c.modifiers.apply (Expansion.render c (Rule.tokens "owl".toList) _).text []) = _
    rw [howl, Expansion.render_text, Expansion.render_nil, Expansion.Result.prepend_store,
      Expansion.render_nil]
    rfl
  have hdraws : r.store.draws = 1 := congrArg (·.store.draws) hr
  have htake : Source.take c.draw 1 () = Source.take c'.draw 1 [zero, one] := rfl
  have hdiffer : Source.take c.draw 2 () ≠ Source.take c'.draw 2 [zero, one] := by decide +kernel
  have hmods : c'.modifiers = c.modifiers := rfl
  obtain ⟨honce, hcalls, hresults⟩ := expand_uses_draws_alone hmods
  obtain ⟨g', hg'⟩ : ∃ g', (grammarAt tree o.path).2 = .ok g' :=
    ⟨[("a".toList, ["b".toList, "c".toList])], Yaml.eq_ok_of_toOption (by decide +kernel)⟩
  obtain ⟨texts, hlength, hthree, htwo⟩ :=
    hresults tree o g' Registry.english "seed".toList (by decide) hg' rfl rfl 2 3 (by decide)
  have hagree : Source.take c.draw r.store.draws () =
      Source.take c'.draw r.store.draws [zero, one] := by
    rw [hdraws]
    exact htake
  exact ⟨⟨hdraws, htake, hdiffer, (honce g _ _ _ hagree).1⟩, hcalls _ () 1, texts, hlength,
    hthree _, htwo _⟩

end TextGrammar.Cli
