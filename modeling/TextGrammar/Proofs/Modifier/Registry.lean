/-
# `TextGrammar.Proofs.Modifier.Registry` — what definitions add to a registry

`Registry.define` goes through aliases in order, and looks the names of each
up in what it has so far.  So it succeeds exactly if every name was there or
stands further up (`define_eq_ok_iff`), it adds the names of the aliases and
no others (`mem_keys_of_define`), and each alias acts as its names, one after
the other, did in the registry above it (`get?_of_define`).
-/
import TextGrammar.Modifier.Registry
import TextGrammar.Proofs.Assoc.Entries

namespace TextGrammar.Registry

/-! ## Looking names up -/

theorem resolve_eq_ok_iff {r : Registry} {names : List Text} :
    (∃ fs, r.resolve names = .ok fs) ↔ ∀ n ∈ names, n ∈ r.keys := by
  induction names with
  | nil => exact ⟨fun _ _ hn => absurd hn List.not_mem_nil, fun _ => ⟨[], rfl⟩⟩
  | cons name names ih =>
    rw [List.forall_mem_cons, ← ih, resolve]
    cases hget : r.get? name with
    | none =>
      have hname : name ∉ r.keys := Assoc.get?_eq_none_iff.mp hget
      simp [hname]
    | some f =>
      have hname : name ∈ r.keys :=
        List.mem_map.mpr ⟨(name, f), Assoc.mem_of_get? hget, rfl⟩
      cases hrest : r.resolve names with
      | error e => simp [Except.map]
      | ok fs => simp [Except.map, hname]

/-- The modifiers of the names, composed, are what the names do. -/
theorem compose_of_resolve {r : Registry} {names : List Text} {fs : List Modifier}
    (h : r.resolve names = .ok fs) (t : Text) : compose fs t = r.apply t names := by
  induction names generalizing fs t with
  | nil =>
    cases h
    rfl
  | cons name names ih =>
    rw [resolve] at h
    cases hget : r.get? name with
    | none =>
      rw [hget] at h
      cases h
    | some f =>
      cases hrest : r.resolve names with
      | error e =>
        rw [hget, hrest] at h
        cases h
      | ok gs =>
        rw [hget, hrest] at h
        cases h
        have hname : r.applyName t name = f t := by rw [applyName, hget]
        show compose gs (f t) = r.apply (r.applyName t name) names
        rw [hname]
        exact ih hrest (f t)

/-! ## Definitions -/

variable {r r' : Registry} {key : Text} {names : List Text} {aliases : Assoc Text (List Text)}

/-- A definition that succeeds takes the modifiers of its names from the
registry above it. -/
theorem define_cons_eq_ok_iff :
    r.define ((key, names) :: aliases) = .ok r' ↔
      ∃ fs, r.resolve names = .ok fs ∧ define (r.insert key (compose fs)) aliases = .ok r' := by
  rw [define]
  cases r.resolve names with
  | error e => simp
  | ok fs => simp

/-- Definitions go on where those in front of them ended. -/
theorem define_append (as bs : Assoc Text (List Text)) :
    r.define (as ++ bs) = (r.define as).bind (·.define bs) := by
  induction as generalizing r with
  | nil => rfl
  | cons e as ih =>
    obtain ⟨key, names⟩ := e
    rw [List.cons_append, define, define]
    cases r.resolve names with
    | error e => rfl
    | ok fs => exact ih

theorem define_append_eq_ok_iff {as bs : Assoc Text (List Text)} :
    r.define (as ++ bs) = .ok r' ↔ ∃ r₁, r.define as = .ok r₁ ∧ r₁.define bs = .ok r' := by
  rw [define_append]
  cases r.define as with
  | error e => simp [Except.bind]
  | ok r₁ => simp [Except.bind]

/-- The names are those that were there and those of the aliases. -/
theorem mem_keys_of_define (h : r.define aliases = .ok r') (n : Text) :
    n ∈ r'.keys ↔ n ∈ r.keys ∨ n ∈ Assoc.keys aliases := by
  induction aliases generalizing r with
  | nil =>
    cases h
    exact (or_iff_left List.not_mem_nil).symm
  | cons e aliases ih =>
    obtain ⟨key, names⟩ := e
    obtain ⟨fs, -, h⟩ := define_cons_eq_ok_iff.mp h
    rw [ih h, Assoc.mem_keys_insert_iff]
    show _ ↔ n ∈ r.keys ∨ n ∈ key :: Assoc.keys aliases
    rw [List.mem_cons, or_comm (a := n = key), or_assoc]

/-- What no alias is called keeps its meaning. -/
theorem get?_of_define_of_not_mem (h : r.define aliases = .ok r') {n : Text}
    (hn : n ∉ Assoc.keys aliases) : r'.get? n = r.get? n := by
  induction aliases generalizing r with
  | nil =>
    cases h
    rfl
  | cons e aliases ih =>
    obtain ⟨key, names⟩ := e
    obtain ⟨fs, -, h⟩ := define_cons_eq_ok_iff.mp h
    have hkey : ¬ n = key := fun he => hn (he ▸ List.mem_cons_self)
    rw [ih h fun hm => hn (List.mem_cons_of_mem _ hm), Assoc.get?_insert,
      if_neg (by simpa using hkey)]

/-- Definitions succeed exactly if each name is there or is defined above. -/
theorem define_eq_ok_iff :
    (∃ r', r.define aliases = .ok r') ↔
      ∀ above key names below, aliases = above ++ (key, names) :: below →
        ∀ n ∈ names, n ∈ r.keys ∨ n ∈ Assoc.keys above := by
  induction aliases generalizing r with
  | nil =>
    refine ⟨fun _ above key names below he => ?_, fun _ => ⟨r, rfl⟩⟩
    exact absurd he.symm (List.append_ne_nil_of_right_ne_nil _ (List.cons_ne_nil _ _))
  | cons e aliases ih =>
    obtain ⟨key, names⟩ := e
    constructor
    · rintro ⟨r', h⟩ above key' names' below he
      obtain ⟨fs, hfs, h⟩ := define_cons_eq_ok_iff.mp h
      cases above with
      | nil =>
        cases he
        exact fun n hn => .inl (resolve_eq_ok_iff.mp ⟨fs, hfs⟩ n hn)
      | cons e above =>
        cases he
        intro n hn
        have := ih.mp ⟨r', h⟩ above key' names' below rfl n hn
        rw [Assoc.mem_keys_insert_iff, or_comm (a := n = key), or_assoc] at this
        exact this.imp_right List.mem_cons.mpr
    · intro h
      have hnames : ∀ n ∈ names, n ∈ r.keys := fun n hn =>
        (h [] key names aliases rfl n hn).resolve_right List.not_mem_nil
      obtain ⟨fs, hfs⟩ := resolve_eq_ok_iff.mpr hnames
      have hrest : ∃ r', define (r.insert key (compose fs)) aliases = .ok r' := by
        rw [ih]
        rintro above key' names' below rfl n hn
        have := h ((key, names) :: above) key' names' below rfl n hn
        rw [Assoc.mem_keys_insert_iff, or_comm (a := n = key), or_assoc]
        exact this.imp_right List.mem_cons.mp
      obtain ⟨r', hr'⟩ := hrest
      exact ⟨r', define_cons_eq_ok_iff.mpr ⟨fs, hfs, hr'⟩⟩

/-- An alias acts as its names did in the registry above it. -/
theorem get?_of_define {above below : Assoc Text (List Text)}
    (h : r.define (above ++ (key, names) :: below) = .ok r') (hkey : key ∉ Assoc.keys below) :
    ∃ r₁ f, r₁.define ((key, names) :: below) = .ok r' ∧ r.define above = .ok r₁ ∧
      r'.get? key = some f ∧ ∀ t, f t = r₁.apply t names := by
  obtain ⟨r₁, habove, hrest⟩ := define_append_eq_ok_iff.mp h
  obtain ⟨fs, hfs, hbelow⟩ := define_cons_eq_ok_iff.mp hrest
  refine ⟨r₁, compose fs, hrest, habove, ?_, compose_of_resolve hfs⟩
  rw [get?_of_define_of_not_mem hbelow hkey, Assoc.get?_insert, if_pos (beq_self_eq_true key)]

end TextGrammar.Registry
