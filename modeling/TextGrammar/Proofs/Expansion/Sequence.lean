/-
# `TextGrammar.Proofs.Expansion.Sequence` — one expansion behind the other

The tokens of an origin are rendered from left to right, and what has been
rendered leaves nothing behind but its store (`render_append`).  So an origin
that is made of two texts is expanded as one text after the other, if three
things hold:

    closed        the first text is cut as it is alone
    no action     nothing is bound for the second text that a fresh expansion
                  does not have
    the ceiling   the levels go on from those of the first text, and must not
                  run out where those of a fresh expansion do not

Then the source is the one thing that goes from the first to the second:

    expand_append    expand c g (x ++ y) source is expand c g x source, and
                     behind it expand c g y from where the source then is
-/
import TextGrammar.Proofs.Expansion.Trail
import TextGrammar.Proofs.Expansion.Unbounded
import TextGrammar.Proofs.Rule.Boundary

namespace TextGrammar.Expansion

variable {σ : Type} {c : Setting σ} {g : Grammar} {origin : Text} {source : σ}

/-! ## Tokens behind tokens -/

theorem Result.prepend_prepend (t u : Text) (r : Result σ) :
    (r.prepend u).prepend t = r.prepend (t ++ u) := by
  simp only [Result.prepend, List.append_assoc]

theorem render_append (c : Setting σ) (ts us : List Token) (s : Store σ) :
    render c (ts ++ us) s =
      (render c us (render c ts s).store).prepend (render c ts s).text := by
  induction ts, s using renderFrom.induct c with
  | case1 s => rw [render_nil]; rfl
  | case2 v ts s ih =>
    rw [List.cons_append, render_text, render_text, ih, Result.prepend_prepend]
    rfl
  | case3 k v ts s ih => rw [List.cons_append, render_action, render_action, ih]
  | case4 k names ts s hk ih =>
    rw [List.cons_append, render_unbound c hk, render_unbound c hk, ih, Result.prepend_prepend]
    rfl
  | case5 k names ts s candidates hk chosen deeper hlt inner hle hinner _ ih =>
    have hfirst : render c (Rule.tokens chosen) deeper = inner :=
      congrArg Rendering.toResult hinner
    have hbelow : ∀ vs, render c (.rule k names :: vs) s =
        (render c vs inner.store).prepend (c.modifiers.apply inner.text names) := by
      intro vs
      rw [← hfirst]
      exact render_below c hk hlt vs
    rw [List.cons_append, hbelow, hbelow, ih, Result.prepend_prepend]
    rfl
  | case6 k names ts s candidates hk deeper hlt ih =>
    have hflat : ∀ vs, render c (.rule k names :: vs) s = (render c vs deeper).prepend
        (c.modifiers.apply (s.pick c.draw k candidates).1 names) :=
      render_at_ceiling c hk hlt
    rw [List.cons_append, hflat, hflat, ih, Result.prepend_prepend]
    rfl

/-! ## Runs without actions -/

/-- Some step of the run reads an action. -/
def ReadsAction (c : Setting σ) (g : Grammar) (origin : Text) (source : σ) : Prop :=
  ∃ n texts s k v ts, Reached c g origin source n texts s ∧
    s.frame.pending = .action k v :: ts

theorem symbols_of_reached (h : ¬ ReadsAction c g origin source) {n texts : Nat} {s : State σ}
    (hs : Reached c g origin source n texts s) : s.store.symbols = g := by
  induction hs with
  | start => rfl
  | step hreached hstep ih =>
    cases move_of_step hstep with
    | text => exact ih
    | action => exact absurd ⟨_, _, _, _, _, _, hreached, rfl⟩ h
    | unbound => exact ih
    | deeper => exact ih
    | flat => exact ih
    | close => exact ih

theorem symbols_expand (h : ¬ ReadsAction c g origin source) :
    (expand c g origin source).store.symbols = g := by
  obtain ⟨n, texts, s, hs, -, hstore⟩ := exists_reached_done c g origin source
  rw [hstore]
  exact symbols_of_reached h hs

theorem exists_run_of_reached {n texts : Nat} {s : State σ}
    (h : Reached c g origin source n texts s) : ∃ t, Run c g origin source s t := by
  induction h with
  | start => exact ⟨_, .start⟩
  | step _ hstep ih =>
    obtain ⟨t, ht⟩ := ih
    exact ⟨_, ht.step hstep⟩

/-- An action that is read stands in the origin or in a candidate. -/
theorem not_readsAction
    (h : ∀ site ∈ Lint.sites g origin, ∀ k v, .action k v ∉ Rule.tokens site.rule) :
    ¬ ReadsAction c g origin source := by
  rintro ⟨n, texts, s, k, v, ts, hs, hp⟩
  obtain ⟨t, ht⟩ := exists_run_of_reached hs
  have hfollows := follows_of_run ht
  have htoken : .action k v ∈ Rule.tokens t.current.text :=
    hfollows.stacked.pending_subset (hp ▸ List.mem_cons_self)
  obtain ⟨hsite, htext⟩ := comesFrom_of_token (hfollows.grounded _ List.mem_cons_self) htoken
  rcases htext with htext | ⟨key, hkey⟩
  · exact h _ hsite k v (htext ▸ htoken)
  · exact h _ hsite key _ hkey

/-! ## Expansions that go on -/

/-- With fewer draws than `ceiling` nothing is noticed. -/
theorem notices_expand (hd : (expand c g origin source).store.draws < ceiling) :
    (expand c g origin source).store.notices = [] := by
  obtain ⟨hdepth, -, hlength⟩ := counted_expand c g origin source
  rw [if_neg (by omega)] at hlength
  exact List.eq_nil_of_length_eq_zero hlength

/-- A run without actions leaves the grammar as it was. -/
theorem scene_expand (h : ¬ ReadsAction c g origin source) :
    (expand c g origin source).store.scene =
      ⟨g, Source.advance c.draw (expand c g origin source).store.draws source⟩ := by
  rw [Store.scene, symbols_expand h, ← (counted_expand c g origin source).source_eq]

/-- An expansion that begins deeper gives the same as a fresh one, as long as
the levels of both are below the ceiling. -/
theorem render_deeper {s : Store σ} (hs : s.scene = ⟨g, source⟩)
    (hd : s.depth + (expand c g origin source).store.draws ≤ ceiling) (hpos : 1 ≤ s.depth) :
    let r := expand c g origin source
    render c (Rule.tokens origin) s = ⟨r.text, s.descend r.store.draws r.store.scene⟩ := by
  intro r
  have hr : r = render c (Rule.tokens origin) (Store.init g source) := by
    show expand c g origin source = _
    rw [expand, run_eq_value, value_init]
  have hdepth : r.store.depth = 1 + r.store.draws := (counted_expand c g origin source).depth_eq
  have hdraws : r.store.depth - (Store.init g source).depth = r.store.draws := by
    show r.store.depth - 1 = r.store.draws
    omega
  have hwithin : r.store.depth ≤ ceiling := by
    rw [hdepth]
    exact Nat.le_trans (Nat.add_le_add_right hpos _) hd
  have hyields := yields_of_render c (Rule.tokens origin) (Store.init g source)
  rw [← hr, hdraws] at hyields
  exact render_of_yields (hyields hwithin) hs hd

/-- **Expansion goes through a text in order.** -/
theorem expand_append {x : Text} (hx : Rule.Closed x) (hact : ¬ ReadsAction c g x source)
    (y : Text) :
    let rx := expand c g x source
    let ry := expand c g y (Source.advance c.draw rx.store.draws source)
    let r := expand c g (x ++ y) source
    rx.store.draws + ry.store.draws < ceiling →
      r.text = rx.text ++ ry.text ∧ r.store.draws = rx.store.draws + ry.store.draws ∧
        r.store.source = ry.store.source ∧ r.store.notices = [] := by
  intro rx ry r hd
  have hdepth : rx.store.depth = 1 + rx.store.draws := (counted_expand c g x source).depth_eq
  have hr : r = (render c (Rule.tokens y) rx.store).prepend rx.text := by
    have hrx : rx = render c (Rule.tokens x) (Store.init g source) := by
      show expand c g x source = _
      rw [expand, run_eq_value, value_init]
    show expand c g (x ++ y) source = _
    rw [hrx, expand, run_eq_value, value_init, Rule.tokens_append hx, render_append]
  have hrest : render c (Rule.tokens y) rx.store =
      ⟨ry.text, rx.store.descend ry.store.draws ry.store.scene⟩ := by
    refine render_deeper (scene_expand hact) ?_ ?_
    · show rx.store.depth + ry.store.draws ≤ ceiling
      omega
    · omega
  have hnotices : rx.store.notices = [] :=
    notices_expand (Nat.lt_of_le_of_lt (Nat.le_add_right _ _) hd)
  rw [hr, hrest]
  exact ⟨rfl, rfl, rfl, hnotices⟩

/-- A grammar without actions. -/
def oneOwl : Grammar := [("b".toList, ["owl".toList])]

/-- A text that ends with a drop, and one whose first opener has no closer. -/
theorem expand_append_oneOwl :
    let c : Setting Unit := ⟨.english, fun u => (.finite false 0 0, u)⟩
    let x := "an #b###".toList
    let y := "[#b#".toList
    let rx := expand c oneOwl x ()
    let ry := expand c oneOwl y (Source.advance c.draw rx.store.draws ())
    let r := expand c oneOwl (x ++ y) ()
    Rule.Closed x ∧ ¬ ReadsAction c oneOwl x () ∧ rx.store.draws + ry.store.draws < ceiling ∧
      rx.text = "an owl".toList ∧ ry.text = "[owl".toList ∧
      r.text = rx.text ++ ry.text ∧ r.store.draws = rx.store.draws + ry.store.draws ∧
      r.store.source = ry.store.source ∧ r.store.notices = [] := by
  intro c x y rx ry r
  have hevents : Rule.events x =
      [.token (.text "an ".toList), .token (.rule "b".toList []), .drop .rule "##".toList] := by
    simp [x, Rule.events_eq_split, Rule.split, Rule.splitFirst, Rule.splitSpan, Rule.isPlain,
      isOpener]
    exact ⟨rfl, rfl⟩
  have hx : Rule.tokens x = [.text "an ".toList, .rule "b".toList []] := by
    rw [Rule.tokens, hevents]
    rfl
  have hy : Rule.tokens y = [.text "[".toList, .rule "b".toList []] := by
    simp [y, Rule.tokens_eq_split, Rule.split, Rule.splitFirst, Rule.splitSpan, Rule.isPlain,
      isOpener]
    rfl
  have howl : Rule.tokens "owl".toList = [.text "owl".toList] := by
    simp [Rule.tokens_eq_split, Rule.split, Rule.splitFirst, Rule.isPlain, isOpener]
    rfl
  have hstart : ∀ o ∈ "an ".toList.head?, o ≠ '#' ∧ o ≠ '[' := by
    intro o ho
    cases ho
    decide
  have hclosed : Rule.Closed x := by
    rw [Rule.Closed, hevents, Rule.sealed_text_cons_iff, Rule.sealed_cons_iff (by simp),
      Rule.sealed_cons_iff (by simp)]
    exact ⟨List.cons_ne_nil _ _, hstart, Rule.sealed_nil⟩
  have hact : ¬ ReadsAction c oneOwl x () := by
    refine not_readsAction fun site hsite k v hk => ?_
    rcases List.mem_cons.mp hsite with rfl | hsite
    · simp [hx] at hk
    · have hrule : site.rule = "owl".toList := congrArg Lint.Site.rule (List.mem_singleton.mp hsite)
      rw [hrule, howl] at hk
      simp at hk
  have href : render c [.rule "b".toList []] (Store.init oneOwl ()) =
      ⟨"owl".toList, ⟨oneOwl, 2, 1, (), []⟩⟩ := by
    have hk : (Store.init oneOwl ()).symbols.get? "b".toList = some ["owl".toList] := rfl
    have hd : (Store.init oneOwl ()).depth < ceiling := by decide
    rw [render_below c hk hd]
    show (render c [] (render c (Rule.tokens "owl".toList) _).store).prepend
      (c.modifiers.apply (render c (Rule.tokens "owl".toList) _).text []) = _
    rw [howl, render_text, render_nil, Result.prepend_store, render_nil]
    rfl
  have hrx : rx = ⟨"an owl".toList, ⟨oneOwl, 2, 1, (), []⟩⟩ := by
    show expand c oneOwl x () = _
    rw [expand, run_eq_value, value_init, hx, render_text, href]
    rfl
  have hry : ry = ⟨"[owl".toList, ⟨oneOwl, 2, 1, (), []⟩⟩ := by
    show expand c oneOwl y () = _
    rw [expand, run_eq_value, value_init, hy, render_text, href]
    rfl
  have hdraws : rx.store.draws + ry.store.draws < ceiling := by
    rw [hrx, hry]
    decide
  exact ⟨hclosed, hact, hdraws, by rw [hrx], by rw [hry], expand_append hclosed hact y hdraws⟩

end TextGrammar.Expansion
