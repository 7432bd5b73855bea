/-
# `TextGrammar.Proofs.Rule.Parts` — the grammar of rules

`Parts t es` says that the text `t` consists of parts with the events `es`,
and says it by concatenation only: no position, no checkpoint, no search.

    t                                           event
    `##` w                                      drop of `##`
    `#` u `#` w      u ≠ ε, no `#` in u         reference, u split at every `.`
    `[` u `]` w      no `]` in u                action at the leftmost `[` that
                                                binds, drop if there is none
    o run w          o an opener, no closer     text o run
    run w            run ≠ ε                    text run

In the last two lines `run` is free of openers and `w` is empty or starts
with one, so that the run is the longest one.  A span binds at a `[` behind
which a key without `:`, a `:` and a value follow, up to the closer, the key
and the value not empty (`BindsAt`).

The main statement is that scanning a rule gives these events and no others:

    events_eq_iff_parts      Rule.events rule = es ↔ Parts rule es

From left to right the grammar describes what the scan does on every text;
from right to left it is unambiguous and the scan finds its one reading.
-/
import TextGrammar.Proofs.Rule.Cut
import TextGrammar.Proofs.Text.Fields

namespace TextGrammar.Rule

/-! ## Bindings in a span -/

/-- Behind `before` a span without its closer has a `[` that binds. -/
structure BindsAt (span before key value : Text) : Prop where
  span_eq : span = before ++ '[' :: key ++ ':' :: value
  key_ne : key ≠ []
  colon_not_mem : ':' ∉ key
  value_ne : value ≠ []

/-- The leftmost `[` that binds, binds `key` to `value`. -/
def BindsFirst (span key value : Text) : Prop :=
  ∃ before, BindsAt span before key value ∧
    ∀ before' key' value', BindsAt span before' key' value' → before.length ≤ before'.length

/-- No `[` of the span binds. -/
def BindsNowhere (span : Text) : Prop :=
  ∀ before key value, ¬ BindsAt span before key value

theorem binding?_eq_some_iff {t key value : Text} :
    binding? t = some (key, value) ↔
      t = key ++ ':' :: value ∧ key ≠ [] ∧ ':' ∉ key ∧ value ≠ [] := by
  constructor
  · intro h
    rw [binding?] at h
    split at h
    · next k ks c v vs htake hdrop =>
      simp only [Option.some.injEq, Prod.mk.injEq] at h
      obtain ⟨rfl, rfl⟩ := h
      have hc : c = ':' := by
        have hhead := List.head?_dropWhile_not (· != ':') t
        rw [hdrop] at hhead
        simpa using hhead
      subst hc
      refine ⟨?_, List.cons_ne_nil k ks, ?_, List.cons_ne_nil v vs⟩
      · rw [← htake, ← hdrop, List.takeWhile_append_dropWhile]
      · rw [← htake]
        intro hm
        have hall := List.all_eq_true.mp (List.all_takeWhile (p := (· != ':')) (l := t)) ':' hm
        exact absurd hall (by decide)
    · cases h
  · rintro ⟨rfl, hkey, hcolon, hvalue⟩
    have hu := bne_of_not_mem hcolon
    rw [binding?, List.takeWhile_append_of_pos hu, List.dropWhile_append_of_pos hu]
    cases key with
    | nil => exact absurd rfl hkey
    | cons k ks =>
      cases value with
      | nil => exact absurd rfl hvalue
      | cons v vs => simp

/-- What the first character of a span binds, if it is a `[`. -/
def bindingInFront? : Text → Option (Text × Text)
  | [] => none
  | c :: rest => if c = '[' then binding? rest else none

theorem bindingInFront?_eq_some_iff {span key value : Text} :
    bindingInFront? span = some (key, value) ↔ BindsAt span [] key value := by
  constructor
  · intro h
    cases span with
    | nil => cases h
    | cons c rest =>
      rw [bindingInFront?] at h
      split at h
      · next hc =>
        obtain ⟨rfl, hkey, hcolon, hvalue⟩ := binding?_eq_some_iff.mp h
        exact ⟨by rw [hc]; rfl, hkey, hcolon, hvalue⟩
      · cases h
  · rintro ⟨rfl, hkey, hcolon, hvalue⟩
    exact binding?_eq_some_iff.mpr ⟨rfl, hkey, hcolon, hvalue⟩

theorem bindingAfterOpener?_cons (c : Char) (rest : Text) :
    bindingAfterOpener? (c :: rest) =
      (bindingInFront? (c :: rest)).or (bindingAfterOpener? rest) := by
  rw [bindingAfterOpener?, bindingInFront?]
  split
  · cases binding? rest <;> rfl
  · rfl

theorem bindsAt_cons_iff {c b : Char} {span before key value : Text} :
    BindsAt (c :: span) (b :: before) key value ↔ c = b ∧ BindsAt span before key value := by
  constructor
  · rintro ⟨h, hkey, hcolon, hvalue⟩
    rw [List.cons_append, List.cons_append, List.cons.injEq] at h
    exact ⟨h.1, h.2, hkey, hcolon, hvalue⟩
  · rintro ⟨rfl, h, hkey, hcolon, hvalue⟩
    exact ⟨by rw [h]; rfl, hkey, hcolon, hvalue⟩

theorem bindsAt_unique {span before before' k k' v v' : Text} (h : BindsAt span before k v)
    (h' : BindsAt span before' k' v') (hlen : before.length = before'.length) :
    k = k' ∧ v = v' := by
  have heq : before ++ ('[' :: k ++ ':' :: v) = before' ++ ('[' :: k' ++ ':' :: v') := by
    have := h.span_eq.symm.trans h'.span_eq
    simpa only [List.append_assoc] using this
  obtain ⟨-, hspan⟩ := List.append_inj heq hlen
  have htail : k ++ ':' :: v = k' ++ ':' :: v' := (List.cons.inj hspan).2
  have hk := binding?_eq_some_iff.mpr ⟨rfl, h.key_ne, h.colon_not_mem, h.value_ne⟩
  rw [htail] at hk
  have hk' := binding?_eq_some_iff.mpr ⟨rfl, h'.key_ne, h'.colon_not_mem, h'.value_ne⟩
  have := hk.symm.trans hk'
  simpa using this

theorem bindsFirst_unique {span k k' v v' : Text} (h : BindsFirst span k v)
    (h' : BindsFirst span k' v') : k = k' ∧ v = v' := by
  obtain ⟨before, hb, hleast⟩ := h
  obtain ⟨before', hb', hleast'⟩ := h'
  exact bindsAt_unique hb hb' (Nat.le_antisymm (hleast _ _ _ hb') (hleast' _ _ _ hb))

theorem bindsFirst_cons {c : Char} {span key value : Text}
    (hc : ∀ k v, ¬ BindsAt (c :: span) [] k v) (h : BindsFirst span key value) :
    BindsFirst (c :: span) key value := by
  obtain ⟨before, hb, hleast⟩ := h
  refine ⟨c :: before, bindsAt_cons_iff.mpr ⟨rfl, hb⟩, ?_⟩
  intro before' k v hb'
  cases before' with
  | nil => exact absurd hb' (hc k v)
  | cons b before' => exact Nat.succ_le_succ (hleast _ _ _ (bindsAt_cons_iff.mp hb').2)

theorem bindsNowhere_cons {c : Char} {span : Text}
    (hc : ∀ k v, ¬ BindsAt (c :: span) [] k v) (h : BindsNowhere span) :
    BindsNowhere (c :: span) := by
  intro before k v hb
  cases before with
  | nil => exact hc k v hb
  | cons b before => exact h before k v (bindsAt_cons_iff.mp hb).2

/-- The search for a binding finds the leftmost one or shows that there is
none. -/
theorem bindingAfterOpener?_spec (span : Text) :
    match bindingAfterOpener? span with
    | some (key, value) => BindsFirst span key value
    | none => BindsNowhere span := by
  induction span with
  | nil =>
    intro before key value hb
    have := hb.span_eq
    simp at this
  | cons c span ih =>
    rw [bindingAfterOpener?_cons]
    cases hfront : bindingInFront? (c :: span) with
    | some b =>
      obtain ⟨key, value⟩ := b
      exact ⟨[], bindingInFront?_eq_some_iff.mp hfront, fun _ _ _ _ => Nat.zero_le _⟩
    | none =>
      have hno : ∀ k v, ¬ BindsAt (c :: span) [] k v := by
        intro k v hb
        rw [bindingInFront?_eq_some_iff.mpr hb] at hfront
        cases hfront
      rw [Option.none_or]
      cases hfind : bindingAfterOpener? span with
      | some b =>
        rw [hfind] at ih
        exact bindsFirst_cons hno ih
      | none =>
        rw [hfind] at ih
        exact bindsNowhere_cons hno ih

/-! ## The events of closed spans -/

theorem spanBody_append (o k : Char) (u : Text) : spanBody (o :: u ++ [k]) = u := by
  rw [spanBody, List.cons_append, List.drop_succ_cons, List.drop_zero, List.dropLast_concat]

/-- A reference is what has its body for the fields between the dots. -/
theorem ruleEvent_eq {u key : Text} {modifiers : List Text} (hu : u ≠ [])
    (hjoin : Text.join ['.'] (key :: modifiers) = u) (hdot : ∀ f ∈ key :: modifiers, '.' ∉ f) :
    ruleEvent ('#' :: u ++ ['#']) = .token (.rule key modifiers) := by
  have hfields : Text.fields '.' u = key :: modifiers :=
    Text.fields_eq_iff.mpr ⟨List.cons_ne_nil key modifiers, hjoin, hdot⟩
  rw [ruleEvent, spanBody_append]
  cases u with
  | nil => exact absurd rfl hu
  | cons c cs => simp only [hfields]

theorem actionEvent_eq {u key value : Text} (h : BindsFirst ('[' :: u) key value) :
    actionEvent ('[' :: u ++ [']']) = .token (.action key value) := by
  have hspec := bindingAfterOpener?_spec ('[' :: u)
  rw [actionEvent, List.dropLast_concat]
  cases hfind : bindingAfterOpener? ('[' :: u) with
  | some b =>
    rw [hfind] at hspec
    obtain ⟨hk, hv⟩ := bindsFirst_unique hspec h
    simp only [hk, hv]
  | none =>
    rw [hfind] at hspec
    obtain ⟨before, hb, -⟩ := h
    exact absurd hb (hspec before key value)

theorem actionEvent_eq_drop {u : Text} (h : BindsNowhere ('[' :: u)) :
    actionEvent ('[' :: u ++ [']']) = .drop .action ('[' :: u ++ [']']) := by
  have hspec := bindingAfterOpener?_spec ('[' :: u)
  rw [actionEvent, List.dropLast_concat]
  cases hfind : bindingAfterOpener? ('[' :: u) with
  | some b =>
    rw [hfind] at hspec
    obtain ⟨before, hb, -⟩ := hspec
    exact absurd hb (h before b.1 b.2)
  | none => rfl

/-! ## The grammar -/

/-- No character of the text opens a reference or an action. -/
def Plain (t : Text) : Prop := '#' ∉ t ∧ '[' ∉ t

/-- The text is empty or starts with an opener. -/
def AtOpener (t : Text) : Prop := ∀ x ∈ t.head?, x = '#' ∨ x = '['

/-- The opener `o` has no closer in the text behind it. -/
def Unclosed (o : Char) (t : Text) : Prop := (o = '#' ∧ '#' ∉ t) ∨ (o = '[' ∧ ']' ∉ t)

/-- The text consists of parts with these events. -/
inductive Parts : Text → List Event → Prop
  | nil : Parts [] []
  | emptyRule {w : Text} {es : List Event} :
      Parts w es → Parts ('#' :: '#' :: w) (.drop .rule ['#', '#'] :: es)
  | rule {u w key : Text} {modifiers : List Text} {es : List Event} :
      u ≠ [] → '#' ∉ u →
      Text.join ['.'] (key :: modifiers) = u → (∀ f ∈ key :: modifiers, '.' ∉ f) →
      Parts w es → Parts ('#' :: u ++ '#' :: w) (.token (.rule key modifiers) :: es)
  | action {u w key value : Text} {es : List Event} :
      ']' ∉ u → BindsFirst ('[' :: u) key value →
      Parts w es → Parts ('[' :: u ++ ']' :: w) (.token (.action key value) :: es)
  | dropAction {u w : Text} {es : List Event} :
      ']' ∉ u → BindsNowhere ('[' :: u) →
      Parts w es → Parts ('[' :: u ++ ']' :: w) (.drop .action ('[' :: u ++ [']']) :: es)
  | opener {o : Char} {run w : Text} {es : List Event} :
      Unclosed o (run ++ w) → Plain run → AtOpener w →
      Parts w es → Parts (o :: run ++ w) (.token (.text (o :: run)) :: es)
  | text {run w : Text} {es : List Event} :
      run ≠ [] → Plain run → AtOpener w →
      Parts w es → Parts (run ++ w) (.token (.text run) :: es)

/-! ### The grammar in the words of the table -/

theorem isPlain_eq_true_iff {c : Char} : isPlain c = true ↔ c ≠ '#' ∧ c ≠ '[' := by
  simp [isPlain, isOpener]

theorem plain_iff {t : Text} : Plain t ↔ ∀ x ∈ t, isPlain x = true := by
  constructor
  · intro h x hx
    rw [isPlain_eq_true_iff]
    exact ⟨fun he => h.1 (he ▸ hx), fun he => h.2 (he ▸ hx)⟩
  · intro h
    constructor
    · intro hm
      exact (isPlain_eq_true_iff.mp (h _ hm)).1 rfl
    · intro hm
      exact (isPlain_eq_true_iff.mp (h _ hm)).2 rfl

theorem atOpener_iff {t : Text} : AtOpener t ↔ ∀ x ∈ t.head?, isPlain x = false := by
  have hx : ∀ x : Char, (x = '#' ∨ x = '[') ↔ isPlain x = false := by
    intro x
    simp only [isPlain, isOpener, Bool.not_eq_false', Bool.or_eq_true, beq_iff_eq]
  exact forall_congr' fun x => imp_congr_right fun _ => hx x

theorem startsText_of_unclosed {o : Char} {t : Text} (h : Unclosed o t) : StartsText o t := by
  rcases h with ⟨rfl, h⟩ | ⟨rfl, h⟩
  · exact ⟨fun _ => h, fun he => absurd he (by decide)⟩
  · exact ⟨fun he => absurd he (by decide), fun _ => h⟩

/-! ### The grammar is the table -/

/-- The events of a derivation are those of the table: the grammar is
unambiguous. -/
theorem split_of_parts {t : Text} {es : List Event} (h : Parts t es) : split t = es := by
  induction h with
  | nil => exact split_nil
  | emptyRule _ ih =>
    rw [← ih]
    exact split_rule (u := []) List.not_mem_nil
  | rule hu hhash hjoin hdot _ ih =>
    rw [List.cons_append, split_rule hhash, ruleEvent_eq hu hjoin hdot, ih]
  | action hu hfirst _ ih =>
    rw [List.cons_append, split_action hu, actionEvent_eq hfirst, ih]
  | dropAction hu hno _ ih =>
    rw [List.cons_append, split_action hu, actionEvent_eq_drop hno, ih]
  | opener ho hrun hw _ ih =>
    rw [List.cons_append,
      split_text_append (plain_iff.mp hrun) (atOpener_iff.mp hw) (startsText_of_unclosed ho), ih]
  | @text run w es hne hrun hw _ ih =>
    cases run with
    | nil => exact absurd rfl hne
    | cons c run =>
      have hplain := plain_iff.mp hrun
      have hc : StartsText c (run ++ w) := startsText_of_isPlain (hplain c List.mem_cons_self) _
      have hrun' : ∀ x ∈ run, isPlain x = true := fun x hx =>
        hplain x (List.mem_cons_of_mem c hx)
      rw [List.cons_append, split_text_append hrun' (atOpener_iff.mp hw) hc, ih]

theorem plain_takeWhile (t : Text) : Plain (t.takeWhile isPlain) :=
  plain_iff.mpr fun _ hx => List.all_eq_true.mp List.all_takeWhile _ hx

theorem atOpener_dropWhile (t : Text) : AtOpener (t.dropWhile isPlain) := by
  rw [atOpener_iff]
  intro x hx
  have hhead := List.head?_dropWhile_not isPlain t
  rw [Option.mem_def.mp hx] at hhead
  simpa using hhead

theorem parts_rule {u w : Text} {es : List Event} (hu : '#' ∉ u) (h : Parts w es) :
    Parts ('#' :: u ++ '#' :: w) (ruleEvent ('#' :: u ++ ['#']) :: es) := by
  by_cases hne : u = []
  · subst hne
    exact .emptyRule h
  · cases hfields : Text.fields '.' u with
    | nil => exact absurd hfields (Text.fields_ne_nil '.' u)
    | cons key modifiers =>
      obtain ⟨-, hjoin, hdot⟩ := Text.fields_eq_iff.mp hfields
      rw [ruleEvent_eq hne hjoin hdot]
      exact .rule hne hu hjoin hdot h

theorem parts_action {u w : Text} {es : List Event} (hu : ']' ∉ u) (h : Parts w es) :
    Parts ('[' :: u ++ ']' :: w) (actionEvent ('[' :: u ++ [']']) :: es) := by
  have hspec := bindingAfterOpener?_spec ('[' :: u)
  cases hfind : bindingAfterOpener? ('[' :: u) with
  | some b =>
    rw [hfind] at hspec
    rw [actionEvent_eq hspec]
    exact .action hu hspec h
  | none =>
    rw [hfind] at hspec
    rw [actionEvent_eq_drop hspec]
    exact .dropAction hu hspec h

/-- Text up to the next opener: an opener without a closer may stand in
front of the run. -/
theorem parts_text {c : Char} {t : Text} (hc : StartsText c t)
    (h : Parts (t.dropWhile isPlain) (split (t.dropWhile isPlain))) :
    Parts (c :: t) (split (c :: t)) := by
  have hrun := plain_takeWhile t
  have hrest := atOpener_dropWhile t
  have hwhole : t.takeWhile isPlain ++ t.dropWhile isPlain = t := List.takeWhile_append_dropWhile
  rw [split_text hc]
  cases hplain : isPlain c with
  | true =>
    have hrun' : Plain (c :: t.takeWhile isPlain) := by
      rw [plain_iff]
      intro x hx
      rcases List.mem_cons.mp hx with rfl | hx
      · exact hplain
      · exact plain_iff.mp hrun x hx
    have hparts := Parts.text (List.cons_ne_nil _ _) hrun' hrest h
    rw [List.cons_append, hwhole] at hparts
    exact hparts
  | false =>
    have ho : Unclosed c t := by
      by_cases hhash : c = '#'
      · exact .inl ⟨hhash, hc.1 hhash⟩
      · by_cases hbracket : c = '['
        · exact .inr ⟨hbracket, hc.2 hbracket⟩
        · rw [isPlain_eq_true_iff.mpr ⟨hhash, hbracket⟩] at hplain
          cases hplain
    have hparts := Parts.opener (hwhole.symm ▸ ho) hrun hrest h
    rw [List.cons_append, hwhole] at hparts
    exact hparts

theorem parts_split (t : Text) : Parts t (split t) := by
  -- a part may be as long as it likes: the induction is on the length of the text
  induction hn : t.length using Nat.strongRecOn generalizing t with
  | _ n ih =>
    subst hn
    cases t with
    | nil =>
      rw [split_nil]
      exact .nil
    | cons c t =>
      by_cases hhash : c = '#' ∧ '#' ∈ t
      · obtain ⟨rfl, hm⟩ := hhash
        obtain ⟨u, w, rfl, hu⟩ := List.eq_append_cons_of_mem hm
        rw [split_rule hu]
        refine parts_rule hu (ih w.length ?_ w rfl)
        simp only [List.length_cons, List.length_append]
        omega
      · by_cases hbracket : c = '[' ∧ ']' ∈ t
        · obtain ⟨rfl, hm⟩ := hbracket
          obtain ⟨u, w, rfl, hu⟩ := List.eq_append_cons_of_mem hm
          rw [split_action hu]
          refine parts_action hu (ih w.length ?_ w rfl)
          simp only [List.length_cons, List.length_append]
          omega
        · refine parts_text ?_ (ih _ ?_ (t.dropWhile isPlain) rfl)
          · exact ⟨fun hc hm => hhash ⟨hc, hm⟩, fun hc hm => hbracket ⟨hc, hm⟩⟩
          · exact Nat.lt_succ_of_le (List.dropWhile_sublist isPlain).length_le

/-- **The events of a rule are those of the grammar**: scanning with a
cursor that goes back and reads again gives exactly the parts that the text
has. -/
theorem events_eq_iff_parts {rule : Text} {es : List Event} :
    events rule = es ↔ Parts rule es := by
  rw [events_eq_split]
  constructor
  · rintro rfl
    exact parts_split rule
  · exact split_of_parts

end TextGrammar.Rule
