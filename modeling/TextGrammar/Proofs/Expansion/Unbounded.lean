/-
# `TextGrammar.Proofs.Expansion.Unbounded` — expansion without a ceiling

`Yields` is expansion as it would be without levels: a reference to a bound
symbol always expands the candidate that is drawn.  It is a relation, for on
some grammars such an expansion has no end and yields nothing.  What it does
yield is counted in draws.

    nil        no tokens yield no text
    text       plain text yields itself
    action     a symbol is bound for the tokens behind
    unbound    a reference to an unbound symbol yields what is written
    bound      a candidate is drawn, what it yields is modified, and its
               bindings and draws go on to the tokens behind

With fewer draws than `ceiling` there is no difference:

    expand_eq_yields_below_ceiling
        what is yielded with fewer draws is the expansion, without a notice,
        and an expansion with fewer draws is yielded

The levels begin at one and every draw goes one deeper, so that up to
`ceiling - 1` draws all levels are within the ceiling, the last one reached
included.  One draw more and the last candidate stays unexpanded.
-/
import TextGrammar.Proofs.Expansion.Counters
import TextGrammar.Proofs.Expansion.Recursion

namespace TextGrammar.Expansion

variable {σ : Type} {c : Setting σ}

/-! ## The relation -/

/-- What an expansion without levels works with. -/
structure Scene (σ : Type) where
  symbols : Grammar
  source : σ

/-- The tokens yield a text, with a number of draws, and leave a scene. -/
inductive Yields (c : Setting σ) : List Token → Scene σ → Text → Nat → Scene σ → Prop
  | nil {w : Scene σ} : Yields c [] w [] 0 w
  | text {v t : Text} {ts : List Token} {w w' : Scene σ} {d : Nat} :
      Yields c ts w t d w' → Yields c (.text v :: ts) w (v ++ t) d w'
  | action {k v t : Text} {ts : List Token} {w w' : Scene σ} {d : Nat} :
      Yields c ts ⟨w.symbols.insert k [v], w.source⟩ t d w' →
      Yields c (.action k v :: ts) w t d w'
  | unbound {k t : Text} {names : List Text} {ts : List Token} {w w' : Scene σ} {d : Nat} :
      w.symbols.get? k = none → Yields c ts w t d w' →
      Yields c (.rule k names :: ts) w (Token.reference k names ++ t) d w'
  | bound {k inner t : Text} {names candidates : List Text} {ts : List Token}
      {w w₁ w' : Scene σ} {d d' : Nat} :
      w.symbols.get? k = some candidates →
      Yields c (Rule.tokens (Choice.candidate (c.draw w.source).1 candidates))
        ⟨w.symbols, (c.draw w.source).2⟩ inner d w₁ →
      Yields c ts w₁ t d' w' →
      Yields c (.rule k names :: ts) w (c.modifiers.apply inner names ++ t) (1 + d + d') w'

/-- The scene of a store. -/
def Store.scene (s : Store σ) : Scene σ := ⟨s.symbols, s.source⟩

/-- The store with a scene, so many draws deeper than another one. -/
def Store.descend (s : Store σ) (d : Nat) (w : Scene σ) : Store σ :=
  ⟨w.symbols, s.depth + d, s.draws + d, w.source, s.notices⟩

theorem Store.descend_scene (s : Store σ) : s.descend 0 s.scene = s := rfl

theorem Store.descend_descend (s : Store σ) (d d' : Nat) (w w' : Scene σ) :
    (s.descend d w).descend d' w' = s.descend (d + d') w' := by
  simp only [Store.descend, Nat.add_assoc]

/-- Below the ceiling a draw goes one level deeper and is not noticed. -/
theorem pick_eq_descend {s : Store σ} (hd : s.depth < ceiling) (key : Text)
    (candidates : List Text) :
    s.pick c.draw key candidates =
      (Choice.candidate (c.draw s.source).1 candidates,
        s.descend 1 ⟨s.symbols, (c.draw s.source).2⟩) := by
  simp only [Store.pick, Store.descend, if_neg (Nat.ne_of_lt hd)]

/-! ## What is yielded is rendered -/

theorem render_of_yields {ts : List Token} {w w' : Scene σ} {t : Text} {d : Nat}
    (h : Yields c ts w t d w') {s : Store σ} (hs : s.scene = w) (hd : s.depth + d ≤ ceiling) :
    render c ts s = ⟨t, s.descend d w'⟩ := by
  induction h generalizing s with
  | nil =>
    rw [render_nil, ← hs, Store.descend_scene]
  | text _ ih => rw [render_text, ih hs hd]; rfl
  | @action k v t ts w w' d _ ih =>
    subst hs
    rw [render_action]
    exact ih (s := s.bind k v) rfl hd
  | unbound hk _ ih =>
    subst hs
    rw [render_unbound c hk, ih rfl hd]
    rfl
  | @bound k inner t names candidates ts w w₁ w' d d' hk _ _ ih₁ ih₂ =>
    subst hs
    have hlt : s.depth < ceiling := by omega
    rw [render_below c hk hlt, pick_eq_descend hlt]
    have hinner := ih₁ (s := s.descend 1 ⟨s.symbols, (c.draw s.source).2⟩) rfl
      (by simp only [Store.descend]; omega)
    have hrest := ih₂ (s := s.descend (1 + d) w₁) rfl (by simp only [Store.descend]; omega)
    simp only [Store.scene] at hinner ⊢
    rw [hinner, Store.descend_descend, hrest, Store.descend_descend]
    rfl

/-! ## What is rendered within the ceiling is yielded -/

theorem depth_le_render (ts : List Token) (s : Store σ) :
    s.depth ≤ (render c ts s).store.depth :=
  (renderFrom c ts s).depth_le

theorem yields_of_render (c : Setting σ) (ts : List Token) (s : Store σ) :
    (render c ts s).store.depth ≤ ceiling →
      Yields c ts s.scene (render c ts s).text ((render c ts s).store.depth - s.depth)
        (render c ts s).store.scene := by
  induction ts, s using renderFrom.induct c with
  | case1 s =>
    intro _
    rw [render_nil, Nat.sub_self]
    exact .nil
  | case2 v ts s ih =>
    rw [render_text]
    exact fun hd => .text (ih hd)
  | case3 k v ts s ih =>
    rw [render_action]
    exact fun hd => .action (ih hd)
  | case4 k names ts s hk ih =>
    rw [render_unbound c hk]
    exact fun hd => .unbound hk (ih hd)
  | case5 k names ts s candidates hk chosen deeper hlt inner hle hinner ih₁ ih₂ =>
    have hfirst : render c (Rule.tokens chosen) deeper = inner :=
      congrArg Rendering.toResult hinner
    have heq : render c (.rule k names :: ts) s =
        (render c ts inner.store).prepend (c.modifiers.apply inner.text names) := by
      rw [← hfirst]
      exact render_below c hk hlt ts
    rw [heq]
    intro hd
    have hrest : inner.store.depth ≤ (render c ts inner.store).store.depth := depth_le_render ts _
    have hdeep : deeper = s.descend 1 ⟨s.symbols, (c.draw s.source).2⟩ :=
      congrArg Prod.snd (pick_eq_descend hlt k candidates)
    have hone : deeper.depth = s.depth + 1 := congrArg Store.depth hdeep
    -- the draw, those of the candidate and those of the tokens behind
    have hsum : (render c ts inner.store).store.depth - s.depth =
        1 + (inner.store.depth - deeper.depth) +
          ((render c ts inner.store).store.depth - inner.store.depth) := by
      rw [hone] at hle ⊢
      omega
    have hwithin := ih₁ (by rw [hfirst]; exact Nat.le_trans hrest hd)
    rw [hfirst] at hwithin
    simp only [Result.prepend_text, Result.prepend_store]
    rw [hsum]
    exact .bound hk hwithin (ih₂ hd)
  | case6 k names ts s candidates hk deeper hlt ih =>
    -- a draw at the ceiling leads beyond it
    intro hd
    have hrest : s.depth + 1 ≤ (render c ts deeper).store.depth := depth_le_render ts deeper
    have hle : (render c ts deeper).store.depth ≤ ceiling := by
      rw [render_at_ceiling c hk hlt] at hd
      exact hd
    omega

/-! ## Expansions -/

/-- The first state stands for the tokens of the origin. -/
theorem value_init (c : Setting σ) (g : Grammar) (origin : Text) (source : σ) :
    (State.init g origin source).value c = render c (Rule.tokens origin) (Store.init g source) := by
  simp only [State.value, State.init, Frame.ofText, resume, List.nil_append, Registry.apply,
    List.foldl_nil]

/-- **Below the ceiling there is none.**  What the origin yields with fewer
draws than `ceiling` is its expansion, with that many draws, the source behind
them and no notice; and an expansion with fewer draws is what it yields. -/
theorem expand_eq_yields_below_ceiling (c : Setting σ) (g : Grammar) (origin : Text) (source : σ) :
    (∀ t d w, d < ceiling → Yields c (Rule.tokens origin) ⟨g, source⟩ t d w →
      expand c g origin source = ⟨t, ⟨w.symbols, 1 + d, d, w.source, []⟩⟩) ∧
    let r := expand c g origin source
    (r.store.draws < ceiling →
      Yields c (Rule.tokens origin) ⟨g, source⟩ r.text r.store.draws
        ⟨r.store.symbols, r.store.source⟩) := by
  have hrender : expand c g origin source =
      render c (Rule.tokens origin) (Store.init g source) := by
    rw [expand, run_eq_value, value_init]
  constructor
  · intro t d w hd h
    have hlevels : (Store.init g source).depth + d ≤ ceiling := by
      show 1 + d ≤ ceiling
      omega
    rw [hrender, render_of_yields h (s := Store.init g source) rfl hlevels]
    simp only [Store.descend, Store.init, Nat.zero_add]
  · intro r hd
    have hdepth : r.store.depth = 1 + r.store.draws := (counted_expand c g origin source).depth_eq
    have h := yields_of_render c (Rule.tokens origin) (Store.init g source)
    rw [← hrender] at h
    have hdraws : r.store.depth - (Store.init g source).depth = r.store.draws := by
      show r.store.depth - 1 = r.store.draws
      omega
    have hwithin : r.store.depth ≤ ceiling := by omega
    rw [← hdraws]
    exact h hwithin

/-- A grammar with a symbol that one of its candidates binds. -/
def owls : Grammar := [("a".toList, ["an [b:owl]#b#".toList])]

theorem expand_owls :
    let c : Setting Unit := ⟨.english, fun u => (.finite false 0 0, u)⟩
    let w : Scene Unit := ⟨owls.insert "b".toList ["owl".toList], ()⟩
    (2 < ceiling ∧ Yields c (Rule.tokens "#a#".toList) ⟨owls, ()⟩ "an owl".toList 2 w) ∧
      expand c owls "#a#".toList () = ⟨"an owl".toList, ⟨w.symbols, 3, 2, (), []⟩⟩ := by
  intro c w
  have horigin : Rule.tokens "#a#".toList = [.rule "a".toList []] := by
    simp [Rule.tokens_eq_split, Rule.split, Rule.splitFirst, Rule.splitSpan]
    rfl
  have hcandidate : Rule.tokens "an [b:owl]#b#".toList =
      [.text "an ".toList, .action "b".toList "owl".toList, .rule "b".toList []] := by
    simp [Rule.tokens_eq_split, Rule.split, Rule.splitFirst, Rule.splitSpan, Rule.isPlain, isOpener]
    rfl
  have hvalue : Rule.tokens "owl".toList = [.text "owl".toList] := by
    simp [Rule.tokens_eq_split, Rule.split, Rule.splitFirst, Rule.isPlain, isOpener]
    rfl
  have howl : Yields c (Rule.tokens (Choice.candidate (c.draw ()).1 ["owl".toList])) w
      "owl".toList 0 w := by
    show Yields c (Rule.tokens "owl".toList) w ("owl".toList ++ []) 0 w
    rw [hvalue]
    exact .text .nil
  have hb : Yields c [.rule "b".toList []] w ("owl".toList ++ []) 1 w :=
    Yields.bound (w := w) rfl howl .nil
  have ha : Yields c (Rule.tokens (Choice.candidate (c.draw ()).1 ["an [b:owl]#b#".toList]))
      ⟨owls, ()⟩ "an owl".toList 1 w := by
    show Yields c (Rule.tokens "an [b:owl]#b#".toList) ⟨owls, ()⟩
      ("an ".toList ++ ("owl".toList ++ [])) 1 w
    rw [hcandidate]
    exact .text (.action hb)
  have h : Yields c (Rule.tokens "#a#".toList) ⟨owls, ()⟩ "an owl".toList 2 w := by
    show Yields c _ _ ("an owl".toList ++ []) 2 w
    rw [horigin]
    exact Yields.bound (w := ⟨owls, ()⟩) rfl ha .nil
  exact ⟨⟨by decide, h⟩, (expand_eq_yields_below_ceiling c owls _ ()).1 _ 2 w (by decide) h⟩

end TextGrammar.Expansion
