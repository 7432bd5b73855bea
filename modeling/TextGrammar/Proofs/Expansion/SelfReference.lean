/-
# `TextGrammar.Proofs.Expansion.SelfReference` — a symbol that refers to itself

A symbol whose only candidate refers to the symbol draws the same text on
every level, and the expansion ends because the levels do.  What it gives can
be told in full, and it shows where the ceiling is: the origin is the first
level, so that one level less is opened than draws are made, and the candidate
drawn on the last level stays as it is written, its reference included.

    { k: [p#k#q] }      p … p, then #k#, then q … q, each as often as there
                        are draws
    { k: [p#k.n#q] }    the modifier is applied to what comes back to each
                        level, and on the last one to the candidate

Both are one statement about any list of modifiers, by induction on the levels
that are left:

    render_selfReference    from any level on, the reference as it is written
                            is wrapped once for each draw
-/
import Mathlib.Logic.Function.Iterate
import TextGrammar.Proofs.Expansion.Choice
import TextGrammar.Proofs.Expansion.Sequence
import TextGrammar.Proofs.Number.Binary64

namespace TextGrammar.Expansion

variable {σ : Type} (c : Setting σ)

/-! ## Plain text -/

theorem render_plain_append {p w : Text} (hp : Rule.Plain p) (hw : Rule.AtOpener w)
    (s : Store σ) :
    render c (Rule.tokens (p ++ w)) s = (render c (Rule.tokens w) s).prepend p := by
  by_cases hne : p = []
  · subst hne
    rfl
  · rw [Rule.tokens_plain_append hne hp hw, render_text]

theorem render_plain {p : Text} (hp : Rule.Plain p) (s : Store σ) :
    render c (Rule.tokens p) s = ⟨p, s⟩ := by
  have h := render_plain_append c (w := []) hp nofun s
  rw [List.append_nil, Rule.tokens_nil, render_nil] at h
  rw [h, Result.prepend, List.append_nil]

/-! ## The candidate -/

/-- Between two texts nothing but the reference to a symbol is read. -/
structure Surrounds (k p q : Text) (names : List Text) : Prop where
  key : k ≠ []
  hash : ∀ f ∈ k :: names, '#' ∉ f
  dot : ∀ f ∈ k :: names, '.' ∉ f
  before : Rule.Plain p
  after : Rule.Plain q

/-- The reference to a symbol with a text before it and one behind it. -/
def surrounded (k p q : Text) (names : List Text) : Text := p ++ Token.reference k names ++ q

variable {c} {k p q : Text} {names : List Text} {s : Store σ}

theorem tokens_reference (h : Surrounds k p q names) :
    Rule.tokens (Token.reference k names) = [.rule k names] := by
  have htokens := Rule.tokens_reference_append h.key h.hash h.dot []
  rw [List.append_nil, Rule.tokens_nil] at htokens
  exact htokens

theorem render_surrounded (h : Surrounds k p q names) (s : Store σ) :
    render c (Rule.tokens (surrounded k p q names)) s =
      let inner := render c [.rule k names] s
      ⟨p ++ inner.text ++ q, inner.store⟩ := by
  have hopener : Rule.AtOpener (Token.reference k names ++ q) := by
    intro x hx
    exact .inl (Option.some.inj hx).symm
  have hcons : Token.rule k names :: Rule.tokens q = [.rule k names] ++ Rule.tokens q := rfl
  rw [surrounded, List.append_assoc, render_plain_append c h.before hopener,
    Rule.tokens_reference_append h.key h.hash h.dot, hcons, render_append, render_plain c h.after]
  simp only [Result.prepend, List.append_assoc]

/-! ## Level by level -/

/-- What a level makes of the text that comes back to it. -/
def wrap (r : Registry) (p q : Text) (names : List Text) (t : Text) : Text :=
  r.apply (p ++ t ++ q) names

theorem render_selfReference_below (h : Surrounds k p q names)
    (hk : s.symbols.get? k = some [surrounded k p q names])
    (hx : (c.draw s.source).1.InUnit) (hd : s.depth < ceiling) :
    render c [.rule k names] s =
      let inner := render c [.rule k names] (s.descend 1 ⟨s.symbols, (c.draw s.source).2⟩)
      ⟨wrap c.modifiers p q names inner.text, inner.store⟩ := by
  rw [render_below c hk hd, pick_eq_descend hd, Choice.candidate_singleton hx]
  simp only [render_surrounded h, render_nil, Result.prepend, List.append_nil]
  rfl

/-- On the last level the candidate is not read. -/
theorem render_selfReference_last (hk : s.symbols.get? k = some [surrounded k p q names])
    (hx : (c.draw s.source).1.InUnit) (hd : s.depth = ceiling) :
    render c [.rule k names] s =
      ⟨wrap c.modifiers p q names (Token.reference k names),
        { s.descend 1 ⟨s.symbols, (c.draw s.source).2⟩ with notices := s.notices ++ [⟨k⟩] }⟩ := by
  have hlast : ¬ s.depth < ceiling := by omega
  rw [render_at_ceiling c hk hlast]
  simp only [Store.pick, if_pos hd, Choice.candidate_singleton hx, render_nil, Result.prepend,
    List.append_nil]
  rfl

/-- From a level on: the reference as it is written, wrapped once for each
draw. -/
theorem render_selfReference (h : Surrounds k p q names) :
    ∀ (n : Nat) {s : Store σ}, s.depth + n = ceiling →
      s.symbols.get? k = some [surrounded k p q names] →
      (∀ x ∈ Source.take c.draw (n + 1) s.source, x.InUnit) →
      render c [.rule k names] s =
        ⟨Nat.iterate (wrap c.modifiers p q names) (n + 1) (Token.reference k names),
          { s.descend (n + 1) ⟨s.symbols, Source.advance c.draw (n + 1) s.source⟩ with
            notices := s.notices ++ [⟨k⟩] }⟩
  | 0, s, hd, hk, hx => render_selfReference_last hk (hx _ List.mem_cons_self) hd
  | n + 1, s, hd, hk, hx => by
    have hlt : s.depth < ceiling := by omega
    have hdeeper : (s.descend 1 ⟨s.symbols, (c.draw s.source).2⟩).depth + n = ceiling := by
      show s.depth + 1 + n = ceiling
      omega
    have hrest := render_selfReference h n hdeeper hk fun x hm => hx x (List.mem_cons_of_mem _ hm)
    rw [render_selfReference_below h hk (hx _ List.mem_cons_self) hlt, hrest]
    simp only [← Function.iterate_succ_apply' (wrap c.modifiers p q names)]
    simp only [Store.descend, Nat.add_assoc, Nat.add_comm 1]
    rfl

/-! ## Wrapping without modifiers -/

theorem flatten_replicate_succ_last (n : Nat) (q : Text) :
    (List.replicate (n + 1) q).flatten = (List.replicate n q).flatten ++ q := by
  rw [List.replicate_succ', List.flatten_append, List.flatten_singleton]

theorem iterate_wrap_nil (r : Registry) (p q t : Text) (n : Nat) :
    Nat.iterate (wrap r p q []) n t =
      (List.replicate n p).flatten ++ t ++ (List.replicate n q).flatten := by
  induction n with
  | zero => exact (List.append_nil t).symm
  | succ n ih =>
    rw [Function.iterate_succ_apply', ih, flatten_replicate_succ_last n q]
    simp only [wrap, Registry.apply, List.foldl_nil, List.replicate_succ, List.flatten_cons,
      List.append_assoc]

/-! ## Expansions -/

theorem expand_selfReference_eq (h : Surrounds k p q names) {source : σ}
    (hx : ∀ x ∈ Source.take c.draw 999 source, x.InUnit) :
    expand c [(k, [surrounded k p q names])] (Token.reference k names) source =
      ⟨Nat.iterate (wrap c.modifiers p q names) 999 (Token.reference k names),
        ⟨[(k, [surrounded k p q names])], 1000, 999, Source.advance c.draw 999 source, [⟨k⟩]⟩⟩ := by
  have hk : Assoc.get? [(k, [surrounded k p q names])] k = some [surrounded k p q names] := by
    simp [Assoc.get?]
  have hd : (Store.init [(k, [surrounded k p q names])] source).depth + 998 = ceiling := rfl
  rw [expand, run_eq_value, value_init, tokens_reference h, render_selfReference h 998 hd hk hx]
  simp only [Store.descend, Store.init, List.nil_append]

/-- Every level was used: a draw was made for each, and the last one was
noticed. -/
structure Exhausts (c : Setting σ) (k : Text) (source : σ) (r : Result σ) : Prop where
  draws : r.store.draws = 999
  source : r.store.source = Source.advance c.draw 999 source
  notices : r.store.notices.map Notice.message =
    ["depth ceiling 999 reached at #".toList ++ k ++ ['#']]

theorem message_notice (k : Text) :
    Notice.message ⟨k⟩ = "depth ceiling 999 reached at #".toList ++ k ++ ['#'] := by
  have hparts : Notice.message ⟨k⟩ =
      "depth ceiling ".toList ++ Text.ofNat ceiling ++ " reached at #".toList ++ k ++ ['#'] := rfl
  have hwords : "depth ceiling ".toList ++ Text.ofNat ceiling ++ " reached at #".toList =
      "depth ceiling 999 reached at #".toList := by decide +kernel
  rw [hparts, hwords]

theorem exhausts_selfReference (h : Surrounds k p q names) {source : σ}
    (hx : ∀ x ∈ Source.take c.draw 999 source, x.InUnit) :
    Exhausts c k source
      (expand c [(k, [surrounded k p q names])] (Token.reference k names) source) := by
  rw [expand_selfReference_eq h hx]
  exact ⟨by dsimp only, by dsimp only, congrArg (· :: []) (message_notice k)⟩

/-- **What comes back from a symbol that refers to itself.** -/
theorem expand_selfReference {k p q : Text} (hkey : k ≠ []) (hhash : '#' ∉ k) (hdot : '.' ∉ k)
    (hp : Rule.Plain p) (hq : Rule.Plain q) {source : σ}
    (hx : ∀ x ∈ Source.take c.draw 999 source, x.InUnit) :
    (let loop := '#' :: k ++ ['#']
      let r := expand c [(k, [p ++ loop ++ q])] loop source
      r.text = (List.replicate 999 p).flatten ++ loop ++ (List.replicate 999 q).flatten ∧
        Exhausts c k source r) ∧
    ∀ (n : Text) (f : Modifier), '#' ∉ n → '.' ∉ n → c.modifiers.get? n = some f →
      let loop := '#' :: (k ++ '.' :: n) ++ ['#']
      let r := expand c [(k, [p ++ loop ++ q])] loop source
      r.text = Nat.iterate (fun t => f (p ++ t ++ q)) 998 (f (p ++ loop ++ q)) ∧
        Exhausts c k source r := by
  constructor
  · intro loop r
    have h : Surrounds k p q [] :=
      ⟨hkey, List.forall_mem_singleton.mpr hhash, List.forall_mem_singleton.mpr hdot, hp, hq⟩
    refine ⟨?_, exhausts_selfReference h hx⟩
    have hr : r = _ := expand_selfReference_eq h hx
    rw [hr]
    dsimp only
    exact iterate_wrap_nil c.modifiers p q loop 999
  · intro n f hnhash hndot hf loop r
    have h : Surrounds k p q [n] :=
      ⟨hkey, List.forall_mem_cons.mpr ⟨hhash, List.forall_mem_singleton.mpr hnhash⟩,
        List.forall_mem_cons.mpr ⟨hdot, List.forall_mem_singleton.mpr hndot⟩, hp, hq⟩
    have hloop : Token.reference k [n] = loop := by
      simp [Token.reference, Text.join, loop]
    have hwrap : wrap c.modifiers p q [n] = fun t => f (p ++ t ++ q) := by
      funext t
      simp only [wrap, Registry.apply, Registry.applyName, List.foldl_cons, List.foldl_nil, hf]
    have heq := expand_selfReference_eq h hx
    have hexhausts := exhausts_selfReference h hx
    rw [surrounded, hloop] at heq hexhausts
    refine ⟨?_, hexhausts⟩
    have hr : r = _ := heq
    rw [hr, hwrap]
    dsimp only
    exact Function.iterate_succ_apply (fun t => f (p ++ t ++ q)) 998 loop

/-- A generator goes round and round a symbol, with and without a modifier. -/
theorem expand_selfReference_round :
    let c : Setting Twister := ⟨.english, Twister.draw⟩
    let k := "round".toList
    let p := "go ".toList
    let q := ".".toList
    let source := Twister.ofKey (List.toArray [7])
    let plain := expand c [(k, ["go #round#.".toList])] "#round#".toList source
    let capital :=
      expand c [(k, ["go #round.capitalize#.".toList])] "#round.capitalize#".toList source
    k ≠ [] ∧ '#' ∉ k ∧ '.' ∉ k ∧ Rule.Plain p ∧ Rule.Plain q ∧
      (∀ x ∈ Source.take c.draw 999 source, x.InUnit) ∧
      plain.text = (List.replicate 999 p).flatten ++ "#round#".toList ++
        (List.replicate 999 q).flatten ∧
      plain.store.notices.map Notice.message =
        ["depth ceiling 999 reached at #round#".toList] ∧
      capital.text = Nat.iterate (fun t => English.capitalize (p ++ t ++ q)) 998
        (English.capitalize "go #round.capitalize#.".toList) := by
  intro c k p q source plain capital
  have hp : Rule.Plain p := ⟨by decide, by decide⟩
  have hq : Rule.Plain q := ⟨by decide, by decide⟩
  have hx : ∀ x ∈ Source.take c.draw 999 source, x.InUnit :=
    Binary64.inUnit_of_mem_take Binary64.inUnit_draw 999 source
  obtain ⟨⟨htext, hexhausts⟩, hmodified⟩ :=
    expand_selfReference (c := c) (k := k) (by decide) (by decide) (by decide) hp hq hx
  obtain ⟨hcapital, -⟩ := hmodified "capitalize".toList English.capitalize (by decide) (by decide)
    rfl
  exact ⟨by decide, by decide, by decide, hp, hq, hx, htext, hexhausts.notices, hcapital⟩

end TextGrammar.Expansion
