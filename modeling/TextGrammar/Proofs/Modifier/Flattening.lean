/-
# `TextGrammar.Proofs.Modifier.Flattening` — aliases bind early

A name can mean one thing above an alias and another thing below it, for the
alias may take over an English name or its own former meaning:

    loud: [capitalizeAll, a]      `a` is the article
    a: [a, s]                     `a` is now the article, then the plural
    both: [a, loud]               a, s, capitalizeAll, a

What a name stands for is a finite list of English modifiers, written out at
its place (`flattened`): each name of an alias is replaced by what it stands
for above the alias.  The induction goes along the aliases; `Stands` is what
every prefix of them keeps.

    withAliases_flattens    which name is the fault, if there is one
                            English modifiers that no alias is called stay
                            each alias acts as its flattened list
                            no alias changes those above it
-/
import Mathlib.Data.List.Forall2
import Mathlib.Data.List.Induction
import TextGrammar.Proofs.Modifier.Registry

namespace TextGrammar.Registry

/-! ## The first unknown name -/

/-- The names in the list of each alias are known or stand above it. -/
def Grounded (known : List Text) (aliases : Assoc Text (List Text)) : Prop :=
  ∀ above key names below, aliases = above ++ (key, names) :: below →
    ∀ n ∈ names, n ∈ known ∨ n ∈ Assoc.keys above

/-- The first name in the lists, read from top to bottom, that is neither known
nor the name of an alias above. -/
def FirstUnknown (known : List Text) (aliases : Assoc Text (List Text)) (n : Text) : Prop :=
  ∃ above key front back below, aliases = above ++ (key, front ++ n :: back) :: below ∧
    Grounded known above ∧ (∀ m ∈ front, m ∈ known ∨ m ∈ Assoc.keys above) ∧
    ¬ (n ∈ known ∨ n ∈ Assoc.keys above)

variable {r r' : Registry} {aliases : Assoc Text (List Text)} {names : List Text} {n : Text}

theorem resolve_eq_error_iff :
    r.resolve names = .error n ↔ ∃ front back, names = front ++ n :: back ∧
      (∀ m ∈ front, m ∈ r.keys) ∧ n ∉ r.keys := by
  constructor
  · intro h
    induction names with
    | nil => cases h
    | cons name names ih =>
      rw [resolve] at h
      cases hget : r.get? name with
      | none =>
        rw [hget] at h
        cases h
        exact ⟨[], names, rfl, fun m hm => absurd hm List.not_mem_nil,
          Assoc.get?_eq_none_iff.mp hget⟩
      | some f =>
        have hname : name ∈ r.keys :=
          List.mem_map.mpr ⟨(name, f), Assoc.mem_of_get? hget, rfl⟩
        have hrest : r.resolve names = .error n := by
          rw [hget] at h
          cases hres : r.resolve names with
          | error e =>
            rw [hres] at h
            cases h
            rfl
          | ok fs =>
            rw [hres] at h
            cases h
        obtain ⟨front, back, rfl, hfront, hn⟩ := ih hrest
        exact ⟨name :: front, back, rfl, List.forall_mem_cons.mpr ⟨hname, hfront⟩, hn⟩
  · rintro ⟨front, back, rfl, hfront, hn⟩
    induction front with
    | nil =>
      rw [List.nil_append, resolve, Assoc.get?_eq_none_iff.mpr hn]
    | cons m front ih =>
      rw [List.forall_mem_cons] at hfront
      cases hget : r.get? m with
      | none => exact absurd hfront.1 (Assoc.get?_eq_none_iff.mp hget)
      | some f =>
        rw [List.cons_append, resolve, hget]
        simp only [ih hfront.2, Except.map]

theorem define_singleton_eq_error_iff {key : Text} :
    r.define [(key, names)] = .error n ↔ r.resolve names = .error n := by
  rw [define]
  cases r.resolve names with
  | error e => simp
  | ok fs => simp [define]

/-- The fault of definitions is the first unknown name. -/
theorem define_eq_error_iff : r.define aliases = .error n ↔ FirstUnknown r.keys aliases n := by
  constructor
  · intro h
    -- from the end: either the aliases in front fail, or the last one does
    induction aliases using List.reverseRecOn with
    | nil => cases h
    | append_singleton above e ih =>
      obtain ⟨key, names⟩ := e
      rw [define_append] at h
      cases habove : r.define above with
      | error m =>
        rw [habove] at h
        cases h
        obtain ⟨above', key', front, back, below, rfl, hfirst⟩ := ih habove
        exact ⟨above', key', front, back, below ++ [(key, names)], by simp, hfirst⟩
      | ok r₁ =>
        rw [habove] at h
        obtain ⟨front, back, rfl, hfront, hn⟩ :=
          resolve_eq_error_iff.mp (define_singleton_eq_error_iff.mp h)
        refine ⟨above, key, front, back, [], rfl, define_eq_ok_iff.mp ⟨r₁, habove⟩, ?_, ?_⟩
        · intro m hm
          exact (mem_keys_of_define habove m).mp (hfront m hm)
        · intro hknown
          exact hn ((mem_keys_of_define habove n).mpr hknown)
  · rintro ⟨above, key, front, back, below, rfl, habove, hfront, hn⟩
    obtain ⟨r₁, hr₁⟩ := define_eq_ok_iff.mpr habove
    have hres : r₁.resolve (front ++ n :: back) = .error n := by
      refine resolve_eq_error_iff.mpr ⟨front, back, rfl, ?_, ?_⟩
      · intro m hm
        exact (mem_keys_of_define hr₁ m).mpr (hfront m hm)
      · intro hknown
        exact hn ((mem_keys_of_define hr₁ n).mp hknown)
    rw [define_append, hr₁]
    show define r₁ ((key, front ++ n :: back) :: below) = .error n
    rw [define, hres]

/-! ## What a name stands for -/

/-- The English modifiers that a name stands for below some aliases, of which
the nearest comes first. -/
def flattened : Assoc Text (List Text) → Text → List Text
  | [], name => [name]
  | (key, names) :: above, name =>
    if name = key then names.flatMap (flattened above) else flattened above name

/-- A modifier is made of the English ones with these names, from left to
right. -/
def MadeOf (f : Modifier) (names : List Text) : Prop :=
  ∃ fs, List.Forall₂ (fun n g => english.get? n = some g) names fs ∧
    ∀ t, f t = fs.foldl (fun t g => g t) t

/-- Each name of a registry acts as the English modifiers that it stands for
below some aliases. -/
def Stands (r : Registry) (near : Assoc Text (List Text)) : Prop :=
  ∀ name f, r.get? name = some f → MadeOf f (flattened near name)

theorem MadeOf.append {f g : Modifier} {ms ns : List Text} (hf : MadeOf f ms)
    (hg : MadeOf g ns) : MadeOf (fun t => g (f t)) (ms ++ ns) := by
  obtain ⟨fs, hfs, hf⟩ := hf
  obtain ⟨gs, hgs, hg⟩ := hg
  refine ⟨fs ++ gs, List.rel_append hfs hgs, fun t => ?_⟩
  rw [List.foldl_append, ← hf]
  exact hg (f t)

theorem stands_english : Stands english [] := by
  intro name f hf
  exact ⟨[f], .cons hf .nil, fun t => rfl⟩

/-- A list of names that is resolved acts as what its names stand for. -/
theorem Stands.resolved {near : Assoc Text (List Text)} (h : Stands r near) {fs : List Modifier}
    (hfs : r.resolve names = .ok fs) : MadeOf (compose fs) (names.flatMap (flattened near)) := by
  induction names generalizing fs with
  | nil =>
    cases hfs
    exact ⟨[], .nil, fun t => rfl⟩
  | cons name names ih =>
    rw [resolve] at hfs
    cases hget : r.get? name with
    | none =>
      rw [hget] at hfs
      cases hfs
    | some f =>
      cases hrest : r.resolve names with
      | error e =>
        rw [hget, hrest] at hfs
        cases hfs
      | ok gs =>
        rw [hget, hrest] at hfs
        cases hfs
        rw [List.flatMap_cons]
        exact (h name f hget).append (ih hrest)

/-- An alias stands for its list, and the other names for what they did. -/
theorem Stands.insert {near : Assoc Text (List Text)} (h : Stands r near) {key : Text}
    {fs : List Modifier} (hfs : r.resolve names = .ok fs) :
    Stands (Assoc.insert r key (compose fs)) ((key, names) :: near) := by
  intro name f hf
  rw [Assoc.get?_insert] at hf
  rw [flattened]
  by_cases hname : name = key
  · rw [if_pos (beq_iff_eq.mpr hname)] at hf
    rw [if_pos hname, ← Option.some.inj hf]
    exact h.resolved hfs
  · rw [if_neg (by simpa using hname)] at hf
    rw [if_neg hname]
    exact h name f hf

theorem Stands.define {near : Assoc Text (List Text)} (h : Stands r near)
    (hr : r.define aliases = .ok r') : Stands r' (aliases.reverse ++ near) := by
  induction aliases generalizing r near with
  | nil =>
    cases hr
    exact h
  | cons e aliases ih =>
    obtain ⟨key, names⟩ := e
    obtain ⟨fs, hfs, hrest⟩ := define_cons_eq_ok_iff.mp hr
    rw [List.reverse_cons, List.append_assoc, List.singleton_append]
    exact ih (h.insert hfs) hrest

/-! ## Aliases of different names -/

/-- Below an alias that is given once, its name stands for its list. -/
theorem flattened_append_cons {near above : Assoc Text (List Text)} {key : Text}
    (h : key ∉ Assoc.keys near) :
    flattened (near ++ (key, names) :: above) key = names.flatMap (flattened above) := by
  induction near with
  | nil => rw [List.nil_append, flattened, if_pos rfl]
  | cons e near ih =>
    obtain ⟨key', names'⟩ := e
    have hkey : key ≠ key' := fun he => h (he ▸ List.mem_cons_self)
    rw [List.cons_append, flattened, if_neg hkey]
    exact ih fun hm => h (List.mem_cons_of_mem _ hm)

theorem disjoint_of_nodup_append {above below : Assoc Text (List Text)}
    (h : (Assoc.keys (above ++ below)).Nodup) {key : Text} (hkey : key ∈ Assoc.keys above) :
    key ∉ Assoc.keys below := by
  rw [Assoc.keys, List.map_append] at h
  intro hbelow
  exact (List.nodup_append.mp h).2.2 key hkey key hbelow rfl

/-- **What aliases of different names do**, or which name is the fault. -/
theorem withAliases_flattens (h : aliases.keys.Nodup) :
    (∀ n, withAliases aliases = .error n ↔ FirstUnknown english.keys aliases n) ∧
    ∀ r, withAliases aliases = .ok r →
      (∀ n, n ∉ aliases.keys → r.get? n = english.get? n) ∧
      (∀ above key names below, aliases = above ++ (key, names) :: below →
        ∃ f, r.get? key = some f ∧ MadeOf f (names.flatMap (flattened above.reverse))) ∧
      ∀ above below, aliases = above ++ below →
        ∃ r₁, withAliases above = .ok r₁ ∧ ∀ k ∈ Assoc.keys above, r.get? k = r₁.get? k := by
  refine ⟨fun n => define_eq_error_iff, ?_⟩
  intro r hr
  refine ⟨fun n hn => get?_of_define_of_not_mem hr hn, ?_, ?_⟩
  · rintro above key names below rfl
    have hkey : key ∉ Assoc.keys below := by
      have hsplit : (Assoc.keys ((above ++ [(key, names)]) ++ below)).Nodup := by simpa using h
      refine disjoint_of_nodup_append hsplit ?_
      rw [Assoc.keys, List.map_append]
      exact List.mem_append_right _ List.mem_cons_self
    obtain ⟨r₁, f, -, -, hget, -⟩ := get?_of_define hr hkey
    have hf := stands_english.define hr key f hget
    rw [List.append_nil, List.reverse_append, List.reverse_cons, List.append_assoc,
      List.singleton_append, flattened_append_cons] at hf
    · exact ⟨f, hget, hf⟩
    · rw [Assoc.keys, List.map_reverse, List.mem_reverse]
      exact hkey
  · rintro above below rfl
    obtain ⟨r₁, habove, hbelow⟩ := define_append_eq_ok_iff.mp hr
    refine ⟨r₁, habove, fun k hk => ?_⟩
    exact get?_of_define_of_not_mem hbelow (disjoint_of_nodup_append h hk)

/-- Here `a` is taken over by an alias that is built on it, between one alias
that uses the article and another one that uses both. -/
theorem withAliases_flattens_article :
    let aliases : Assoc Text (List Text) := [
      ("loud".toList, ["capitalizeAll".toList, "a".toList]),
      ("a".toList, ["a".toList, "s".toList]),
      ("both".toList, ["a".toList, "loud".toList])]
    aliases.keys.Nodup ∧ ∃ r f, withAliases aliases = .ok r ∧ r.get? "both".toList = some f ∧
      MadeOf f ["a".toList, "s".toList, "capitalizeAll".toList, "a".toList] := by
  intro aliases
  have hnodup : aliases.keys.Nodup := by decide
  obtain ⟨r, hr⟩ : ∃ r, withAliases aliases = .ok r := ⟨_, rfl⟩
  obtain ⟨f, hget, hf⟩ := ((withAliases_flattens hnodup).2 r hr).2.1
    [("loud".toList, ["capitalizeAll".toList, "a".toList]), ("a".toList, ["a".toList, "s".toList])]
    "both".toList ["a".toList, "loud".toList] [] rfl
  exact ⟨hnodup, r, f, hr, hget, hf⟩

end TextGrammar.Registry
