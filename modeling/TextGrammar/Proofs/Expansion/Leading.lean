/-
# `TextGrammar.Proofs.Expansion.Leading` — an action in front of an origin

An origin that starts with an action binds a symbol before anything else is
read.  It is expanded as what stands behind the action is, in the grammar in
which the symbol is bound from the start:

    expand_leading    `[key:value]` rest in g  =  rest in g with key bound

The rest may be any text.  Wherever it has openers without closers, or
closers without openers, they do not reach back over the closer of the action
(`tokens_leading`), and whatever it binds or refers to, it finds the same
bindings.
-/
import TextGrammar.Proofs.Expansion.Agreement

namespace TextGrammar.Rule

/-- A key and a value in brackets bind at the first of them. -/
theorem bindsFirst_front {key value : Text} (hkey : key ≠ []) (hcolon : ':' ∉ key)
    (hvalue : value ≠ []) : BindsFirst ('[' :: (key ++ ':' :: value)) key value := by
  refine ⟨[], ⟨rfl, hkey, hcolon, hvalue⟩, ?_⟩
  intro before' key' value' _
  exact Nat.zero_le _

/-- Behind the closer of an action a rule is read as a rule of its own. -/
theorem tokens_leading {key value : Text} (hkey : key ≠ []) (hcolon : ':' ∉ key)
    (hkey' : ']' ∉ key) (hvalue : value ≠ []) (hvalue' : ']' ∉ value) (rest : Text) :
    tokens ('[' :: key ++ ':' :: value ++ ']' :: rest) = .action key value :: tokens rest := by
  have hclosed : ']' ∉ key ++ ':' :: value := by
    intro h
    rcases List.mem_append.mp h with h | h
    · exact hkey' h
    · rcases List.mem_cons.mp h with h | h
      · exact absurd h (by decide)
      · exact hvalue' h
  have hparts : Parts ('[' :: (key ++ ':' :: value) ++ ']' :: rest)
      (.token (.action key value) :: split rest) :=
    .action hclosed (bindsFirst_front hkey hcolon hvalue) (parts_split rest)
  have hsplit := split_of_parts hparts
  rw [List.cons_append, List.append_assoc] at hsplit
  rw [tokens_eq_split, tokens_eq_split, List.cons_append, List.cons_append, List.append_assoc,
    hsplit]
  rfl

end TextGrammar.Rule

namespace TextGrammar.Expansion

variable {σ : Type}

/-- The action is the first move, and makes the state that the rest starts
in. -/
theorem expand_of_tokens {origin rest key value : Text}
    (h : Rule.tokens origin = .action key value :: Rule.tokens rest) (c : Setting σ) (g : Grammar)
    (source : σ) :
    expand c g origin source = expand c (g.insert key [value]) rest source := by
  have hmove : Move c (State.init g origin source)
      (State.init (g.insert key [value]) rest source) := by
    rw [State.init, State.init, Frame.ofText, Frame.ofText, h]
    exact .action
  exact run_of_move hmove

/-- **A leading action is a binding of the grammar.**  In every grammar that
has the value for the key, and for every other symbol what the given grammar
has, the rest of the origin is expanded to the same text, with the same draws
and the same notices. -/
theorem expand_leading {key value : Text} (hkey : key ≠ []) (hcolon : ':' ∉ key)
    (hkey' : ']' ∉ key) (hvalue : value ≠ []) (hvalue' : ']' ∉ value) {g g' : Grammar}
    (hg : ∀ k, g'.get? k = if k = key then some [value] else g.get? k) (rest : Text)
    (c : Setting σ) (source : σ) :
    let r := expand c g ('[' :: key ++ ':' :: value ++ ']' :: rest) source
    let r' := expand c g' rest source
    r.text = r'.text ∧ r.store.draws = r'.store.draws ∧ r.store.source = r'.store.source ∧
      r.store.notices = r'.store.notices := by
  intro r r'
  have hr : r = expand c (g.insert key [value]) rest source :=
    expand_of_tokens (Rule.tokens_leading hkey hcolon hkey' hvalue hvalue' rest) c g source
  have hget : ∀ k, (g.insert key [value]).get? k = g'.get? k := by
    intro k
    rw [hg, Assoc.get?_insert]
    by_cases hk : k = key
    · rw [if_pos (by simpa using hk), if_pos hk]
    · rw [if_neg (by simpa using hk), if_neg hk]
  obtain ⟨m, hm⟩ := expand_of_get?_eq hget c rest source
  rw [hr, hm]
  exact ⟨rfl, rfl, rfl, rfl⟩

/-- A key with openers in it, a value with a colon, and behind them an opener
without a closer and a reference to the key that is not closed either. -/
theorem expand_leading_unclosed :
    let g : Grammar := [("b".toList, ["x".toList])]
    let g' : Grammar := [("#a.[".toList, [":#b#".toList]), ("b".toList, ["x".toList])]
    let c : Setting Unit := ⟨.english, fun u => (.finite false 0 0, u)⟩
    let r := expand c g "[#a.[::#b#][#b##a.[".toList ()
    let r' := expand c g' "[#b##a.[".toList ()
    r.text = r'.text ∧ r.store.draws = r'.store.draws ∧ r.store.source = r'.store.source ∧
      r.store.notices = r'.store.notices := by
  intro g g' c
  have hkey : "#a.[".toList ≠ [] ∧ ':' ∉ "#a.[".toList ∧ ']' ∉ "#a.[".toList := by decide
  have hvalue : ":#b#".toList ≠ [] ∧ ']' ∉ ":#b#".toList := by decide
  have hg : ∀ k, g'.get? k = if k = "#a.[".toList then some [":#b#".toList] else g.get? k := by
    intro k
    by_cases hk : k = "#a.[".toList
    · rw [hk]
      rfl
    · rw [if_neg hk]
      exact if_neg (by simpa using hk)
  exact expand_leading hkey.1 hkey.2.1 hkey.2.2 hvalue.1 hvalue.2 hg "[#b##a.[".toList c ()

end TextGrammar.Expansion
