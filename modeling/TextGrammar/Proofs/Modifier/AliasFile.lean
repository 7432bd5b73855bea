/-
# `TextGrammar.Proofs.Modifier.AliasFile` — when a file of aliases can be defined

A file is checked from top to bottom: an alias may use the English modifiers
and the aliases above it.  Defining its aliases goes through a map, in which
an alias stands where it was *first* given with the list that was given
*last*.  As long as no alias is given twice, once spelled with white space
around it and once without, these are the same order.  Otherwise they need
not be:

    x: [a]
    y: [x]
    " x ": [y]      the map is x: [y], y: [x], and `y` is unknown at `x`

The file is accepted, and yet its aliases cannot be defined.  The main
statement says exactly which accepted files this happens to, and when the
aliases mean what they mean at their place in the file (`meaning`):

    withAliases_of_ofValue    for the aliases of an accepted file
      the definition succeeds ↔ the file is `InOrder`
      its names are the English ones and the aliases
      each alias acts as its list does where it stands, if the file is `Settled`
    settled_of_nodup          a file that gives no alias twice is settled
-/
import Mathlib.Data.List.Basic
import TextGrammar.Modifier.AliasFile
import TextGrammar.Proofs.Modifier.Registry
import TextGrammar.Proofs.Yaml.Node

namespace TextGrammar.AliasFile

/-! ## Entries -/

/-- An alias with the names in its list. -/
abbrev Entry := Text × List Text

/-- The name that a value writes.  In an accepted file names are texts. -/
def written : Value → Text
  | .str t => Text.strip t
  | _ => []

/-- The names that a value lists. -/
def listed : Value → List Text
  | .list items => items.map written
  | _ => []

/-- The entries of a mapping from top to bottom. -/
def entries : Value → List Entry
  | .dict es => es.map fun e => (written e.1, listed e.2)
  | _ => []

/-- What a name means below some entries, the nearest of them first: the
modifiers of its list, one after the other, or the English modifier. -/
def meaning : List Entry → Text → Modifier
  | [], name => fun t => Registry.english.applyName t name
  | (key, names) :: above, name =>
    if name = key then fun t => names.foldl (fun t n => meaning above n t) t
    else meaning above name

/-- The names in each list are English modifiers or aliases further up. -/
def Known (es : List Entry) : Prop :=
  ∀ above key names below, es = above ++ (key, names) :: below →
    ∀ n ∈ names, n ∈ Registry.english.keys ∨ n ∈ Assoc.keys above

/-- The entry below `above` is the last one of its alias. -/
def Last (es above : List Entry) (key : Text) (names : List Text) : Prop :=
  ∃ below, es = above ++ (key, names) :: below ∧ key ∉ Assoc.keys below

/-- The names in the last list of each alias are English modifiers or aliases
that are given before this one is given at all. -/
def InOrder (es : List Entry) : Prop :=
  ∀ above key names, Last es above key names →
    ∀ n ∈ names, n ∈ Registry.english.keys ∨ Assoc.ComesBefore n key (Assoc.keys es)

/-- An alias further up that the last list of another one uses is given before
that one is given at all, and is not given again later. -/
def Settled (es : List Entry) : Prop :=
  ∀ above key names below, es = above ++ (key, names) :: below → key ∉ Assoc.keys below →
    ∀ n ∈ names, n ∈ Assoc.keys above →
      Assoc.ComesBefore n key (Assoc.keys es) ∧ n ∉ key :: Assoc.keys below

/-- A file in which no alias is given twice is settled. -/
theorem settled_of_nodup {es : List Entry} (h : (Assoc.keys es).Nodup) : Settled es := by
  rintro above key names below rfl - n - hn
  rw [Assoc.keys_append_cons] at h ⊢
  obtain ⟨-, -, hdisjoint⟩ := List.nodup_append.mp h
  have hkey : key ∉ Assoc.keys above := fun hk => hdisjoint key hk key List.mem_cons_self rfl
  exact ⟨(Assoc.comesBefore_append_cons_iff hkey).mpr hn, fun hm => hdisjoint n hn n hm rfl⟩

theorem inOrder_of_settled {es : List Entry} (hk : Known es) (hs : Settled es) : InOrder es := by
  rintro above key names ⟨below, hes, hkey⟩ n hn
  refine (hk above key names below hes n hn).imp_right fun habove => ?_
  exact (hs above key names below hes hkey n hn habove).1

/-! ## What the check accepts -/

theorem written_of_name? {v : Value} {n : Text} (h : name? v = some n) : written v = n := by
  cases v with
  | str t =>
    simp only [name?] at h
    split at h
    · cases h
    · exact Option.some.inj h
  | _ => cases h

theorem itemNames_eq_ok {key : Text} {known names : List Text} {items : List Value}
    (h : itemNames key known items = .ok names) :
    names = items.map written ∧ ∀ n ∈ names, n ∈ known := by
  induction items generalizing names with
  | nil =>
    cases h
    exact ⟨rfl, fun _ hn => absurd hn List.not_mem_nil⟩
  | cons v items ih =>
    rw [itemNames] at h
    cases hv : name? v with
    | none =>
      rw [hv] at h
      cases h
    | some n =>
      simp only [hv] at h
      split at h
      · next hknown =>
        cases hrest : itemNames key known items with
        | error d =>
          rw [hrest] at h
          cases h
        | ok rest =>
          rw [hrest] at h
          cases h
          obtain ⟨hrest, hall⟩ := ih hrest
          refine ⟨?_, List.forall_mem_cons.mpr ⟨List.contains_iff_mem.mp hknown, hall⟩⟩
          rw [List.map_cons, written_of_name? hv, hrest]
      · cases h

theorem aliasOf_eq_ok {known : List Text} {e : Value × Value} {entry : Entry}
    (h : aliasOf known e = .ok entry) :
    entry = (written e.1, listed e.2) ∧ ∀ n ∈ entry.2, n ∈ known := by
  obtain ⟨k, v⟩ := e
  cases k with
  | str t =>
    simp only [aliasOf] at h
    split at h
    · cases h
    · cases v with
      | list items =>
        cases items with
        | nil => cases h
        | cons item items =>
          cases hitems : itemNames t known (item :: items) with
          | error d =>
            simp only [hitems] at h
            cases h
          | ok names =>
            simp only [hitems] at h
            cases h
            obtain ⟨rfl, hall⟩ := itemNames_eq_ok hitems
            exact ⟨rfl, hall⟩
      | _ => cases h
  | _ => cases h

theorem readFrom_eq_ok {known : List Text} {before aliases : Assoc Text (List Text)}
    {es : List (Value × Value)} (h : readFrom known before es = .ok aliases) :
    aliases = Assoc.insertAll before (entries (.dict es)) ∧
      ∀ above key names below, entries (.dict es) = above ++ (key, names) :: below →
        ∀ n ∈ names, n ∈ known ∨ n ∈ Assoc.keys above := by
  induction es generalizing known before with
  | nil =>
    cases h
    refine ⟨rfl, fun above key names below he => ?_⟩
    exact absurd he.symm (List.append_ne_nil_of_right_ne_nil _ (List.cons_ne_nil _ _))
  | cons e es ih =>
    rw [readFrom] at h
    cases he : aliasOf known e with
    | error d =>
      simp only [he] at h
      cases h
    | ok entry =>
      simp only [he] at h
      obtain ⟨rfl, hnames⟩ := aliasOf_eq_ok he
      obtain ⟨rfl, hrest⟩ := ih h
      refine ⟨rfl, ?_⟩
      intro above key names below hsplit n hn
      have hcons : (written e.1, listed e.2) :: entries (.dict es) =
          above ++ (key, names) :: below := hsplit
      cases above with
      | nil =>
        cases hcons
        exact .inl (hnames n hn)
      | cons e' above =>
        obtain ⟨rfl, htail⟩ := List.cons.inj hcons
        rcases hrest above key names below htail n hn with hknown | habove
        · rcases List.mem_cons.mp hknown with rfl | hknown
          · exact .inr List.mem_cons_self
          · exact .inl hknown
        · exact .inr (List.mem_cons_of_mem _ habove)

/-- The aliases are those of the entries, and each list names what is known
above it. -/
theorem ofValue_eq_ok {v : Value} {aliases : Assoc Text (List Text)}
    (h : ofValue v = .ok aliases) :
    aliases = Assoc.ofEntries (entries v) ∧ Known (entries v) := by
  cases v with
  | null =>
    cases h
    refine ⟨rfl, fun above key names below he => ?_⟩
    exact absurd he.symm (List.append_ne_nil_of_right_ne_nil _ (List.cons_ne_nil _ _))
  | dict es => exact readFrom_eq_ok h
  | _ => cases h

/-! ## Meanings -/

theorem meaning_of_not_mem {es : List Entry} {name : Text} (h : name ∉ Assoc.keys es) (t : Text) :
    meaning es name t = Registry.english.applyName t name := by
  induction es with
  | nil => rfl
  | cons e es ih =>
    obtain ⟨key, names⟩ := e
    have hkey : name ≠ key := fun he => h (he ▸ List.mem_cons_self)
    rw [meaning, if_neg hkey]
    exact ih fun hm => h (List.mem_cons_of_mem _ hm)

theorem meaning_append_cons {near above : List Entry} {key : Text} {names : List Text}
    (h : key ∉ Assoc.keys near) (t : Text) :
    meaning (near ++ (key, names) :: above) key t =
      names.foldl (fun t n => meaning above n t) t := by
  induction near with
  | nil => rw [List.nil_append, meaning, if_pos rfl]
  | cons e near ih =>
    obtain ⟨key', names'⟩ := e
    have hkey : key ≠ key' := fun he => h (he ▸ List.mem_cons_self)
    rw [List.cons_append, meaning, if_neg hkey]
    exact ih fun hm => h (List.mem_cons_of_mem _ hm)

theorem not_mem_keys_reverse {es : List Entry} {key : Text} (h : key ∉ Assoc.keys es) :
    key ∉ Assoc.keys es.reverse := by
  rw [Assoc.keys, List.map_reverse, List.mem_reverse]
  exact h

/-- Below an entry that is the last one so far, its alias means its list. -/
theorem meaning_reverse {above between : List Entry} {key : Text} {names : List Text}
    (h : key ∉ Assoc.keys between) (t : Text) :
    meaning (above ++ (key, names) :: between).reverse key t =
      names.foldl (fun t n => meaning above.reverse n t) t := by
  rw [List.reverse_append, List.reverse_cons, List.append_assoc, List.singleton_append]
  exact meaning_append_cons (not_mem_keys_reverse h) t

/-! ## Definitions -/

theorem withAliases_eq_ok_iff {es : List Entry} :
    (∃ r, Registry.withAliases (Assoc.ofEntries es) = .ok r) ↔ InOrder es := by
  rw [Registry.withAliases, Registry.define_eq_ok_iff]
  constructor
  · rintro h above key names ⟨below, hes, hkey⟩ n hn
    obtain ⟨front, back, hmap⟩ := Assoc.exists_ofEntries_eq_of_last hes hkey
    exact (h front key names back hmap n hn).imp_right (Assoc.mem_front_iff hmap).mp
  · intro h front key names back hmap n hn
    obtain ⟨above, below, hes, hkey⟩ := Assoc.exists_last_of_ofEntries_eq hmap
    exact (h above key names ⟨below, hes, hkey⟩ n hn).imp_right (Assoc.mem_front_iff hmap).mpr

variable {es : List Entry} {r : Registry}

/-- In a settled file an alias acts as its last list does where that stands.
The induction goes along the map: what the list names stands further in front. -/
theorem acts_of_settled (hs : Settled es)
    (hr : Registry.english.define (Assoc.ofEntries es) = .ok r) {front back above : List Entry}
    {key : Text} {names : List Text} (hmap : Assoc.ofEntries es = front ++ (key, names) :: back)
    (hlast : Last es above key names) :
    ∃ f, r.get? key = some f ∧ ∀ t, f t = names.foldl (fun t n => meaning above.reverse n t) t := by
  induction hlen : front.length using Nat.strongRecOn generalizing front back above key names with
  | _ len ih =>
    subst hlen
    obtain ⟨below, hes, hbelow⟩ := hlast
    obtain ⟨-, hback, hdisjoint⟩ := Assoc.not_mem_of_ofEntries_eq hmap
    rw [hmap] at hr
    obtain ⟨r₁, f, hrest, hr₁, hget, hf⟩ := Registry.get?_of_define hr hback
    refine ⟨f, hget, fun t => ?_⟩
    rw [hf, Registry.apply]
    refine List.foldl_ext _ _ _ fun t n hn => ?_
    by_cases habove : n ∈ Assoc.keys above
    · obtain ⟨hcomes, hlater⟩ := hs above key names below hes hbelow n hn habove
      -- the last entry of `n` is the one above, and in the map it stands in front
      obtain ⟨above', names', between, rfl, hbetween⟩ := Assoc.exists_last_of_mem_keys habove
      have hes' : es = above' ++ (n, names') :: (between ++ (key, names) :: below) := by
        rw [hes, List.append_assoc, List.cons_append]
      have hlast : n ∉ Assoc.keys (between ++ (key, names) :: below) := by
        rw [Assoc.keys_append_cons, List.mem_append, not_or]
        exact ⟨hbetween, hlater⟩
      have hfront : n ∈ Assoc.keys front := (Assoc.mem_front_iff hmap).mpr hcomes
      obtain ⟨front', x, back', rfl, -⟩ := Assoc.exists_last_of_mem_keys hfront
      have hmap' : Assoc.ofEntries es = front' ++ (n, x) :: (back' ++ (key, names) :: back) := by
        rw [hmap, List.append_assoc, List.cons_append]
      have hx : x = names' := by
        have hgetn := Assoc.get?_ofEntries_of_last hes' hlast
        rw [hmap', Assoc.get?_append_cons (Assoc.not_mem_of_ofEntries_eq hmap').1] at hgetn
        exact Option.some.inj hgetn
      subst hx
      obtain ⟨f', hget', hf'⟩ := ih front'.length (by simp) hmap' ⟨_, hes', hlast⟩ rfl
      have hsame := Registry.get?_of_define_of_not_mem hrest (hdisjoint n hfront)
      rw [Registry.applyName, ← hsame, hget', meaning_reverse hbetween]
      exact hf' t
    · -- an English modifier, which no alias in front has replaced
      have hfront : n ∉ Assoc.keys front := by
        rw [Assoc.mem_front_iff hmap, hes, Assoc.keys_append_cons]
        exact fun hcomes => habove (Assoc.mem_of_comesBefore hcomes)
      have hsame := Registry.get?_of_define_of_not_mem hr₁ hfront
      rw [meaning_of_not_mem (not_mem_keys_reverse habove), Registry.applyName,
        Registry.applyName, hsame]

/-- **When the aliases of an accepted file can be defined, and what they
mean.** -/
theorem withAliases_of_ofValue {v : Value} {aliases : Assoc Text (List Text)}
    (h : ofValue v = .ok aliases) :
    ((∃ r, Registry.withAliases aliases = .ok r) ↔ InOrder (entries v)) ∧
      (∀ r, Registry.withAliases aliases = .ok r →
        ∀ n, n ∈ r.keys ↔ n ∈ Registry.english.keys ∨ n ∈ aliases.keys) ∧
      (Settled (entries v) → ∃ r, Registry.withAliases aliases = .ok r ∧
        ∀ key names, aliases.get? key = some names →
          ∃ above, Last (entries v) above key names ∧
            ∃ f, r.get? key = some f ∧
              ∀ t, f t = names.foldl (fun t n => meaning above.reverse n t) t) := by
  obtain ⟨rfl, hk⟩ := ofValue_eq_ok h
  refine ⟨withAliases_eq_ok_iff, fun r hr n => Registry.mem_keys_of_define hr n, ?_⟩
  intro hs
  obtain ⟨r, hr⟩ := withAliases_eq_ok_iff.mpr (inOrder_of_settled hk hs)
  refine ⟨r, hr, fun key names hget => ?_⟩
  obtain ⟨front, back, hmap⟩ := List.append_of_mem (Assoc.mem_of_get? hget)
  obtain ⟨above, hlast⟩ := Assoc.exists_last_of_ofEntries_eq hmap
  exact ⟨above, hlast, acts_of_settled hs hr hmap hlast⟩

/-- Here `x` is given again, with a list that uses what uses it. -/
def overwriting : Value := .dict [
  (.str "x".toList, .list [.str "a".toList]), (.str "y".toList, .list [.str "x".toList]),
  (.str " x ".toList, .list [.str "y".toList])]

/-- The tree of one file of aliases, in ASCII. -/
def aliasFile (t : Text) : FileTree :=
  .ofEntries [("m.yaml".toList, .file (t.map fun c => UInt8.ofNat c.toNat))]

/-- This file is accepted, and its aliases cannot be defined.  What is told of
it is a name between quotes. -/
theorem withAliases_overwriting :
    let tree := aliasFile "x: [a]\ny: [x]\n' x ': [y]\n".toList
    let p := Path.ofText "m.yaml".toList
    let aliases : Assoc Text (List Text) :=
      [("x".toList, ["y".toList]), ("y".toList, ["x".toList])]
    ofValue overwriting = .ok aliases ∧ Registry.withAliases aliases = .error "y".toList ∧
      load tree p = .ok aliases ∧
      ∃ f, registry tree p = .error f ∧ f.message? p = some "'y'".toList := by
  intro tree p aliases
  have hload : load tree p = .ok aliases := Yaml.eq_ok_of_toOption (by decide +kernel)
  have hdefine : Registry.withAliases aliases = .error "y".toList := rfl
  have hregistry : registry tree p = .error (.undefinedName "y".toList) := by
    rw [registry, hload]
    show (Registry.withAliases aliases).mapError Fault.undefinedName = _
    rw [hdefine]
    rfl
  exact ⟨rfl, hdefine, hload, _, hregistry, by decide +kernel⟩

/-- Here `loud` is given again as well, but what uses it stands below. -/
def repeating : Value := .dict [
  (.str "loud".toList, .list [.str "capitalize".toList]),
  (.str "loud ".toList, .list [.str "ed".toList, .str " s".toList]),
  (.str "shout".toList, .list [.str "loud".toList, .str "a".toList])]

theorem settled_repeating : Settled (entries repeating) := by
  intro above key names below hes hbelow n hn habove
  have hentries : entries repeating = [("loud".toList, ["capitalize".toList]),
      ("loud".toList, ["ed".toList, "s".toList]),
      ("shout".toList, ["loud".toList, "a".toList])] := rfl
  rw [hentries] at hes
  match above, hes with
  | [], _ => exact absurd habove List.not_mem_nil
  | [_], rfl =>
    have : ∀ n ∈ ["ed".toList, "s".toList], n ∉ ["loud".toList] := by decide
    exact absurd habove (this n hn)
  | [_, _], rfl =>
    obtain rfl : n = "loud".toList := by
      simpa [Assoc.keys] using habove
    refine ⟨⟨["loud".toList], ["loud".toList, "shout".toList], rfl, ?_, ?_⟩, ?_⟩ <;> decide
  | _ :: _ :: _ :: above, hes => simp at hes

theorem withAliases_repeating :
    let aliases : Assoc Text (List Text) :=
      [("loud".toList, ["ed".toList, "s".toList]), ("shout".toList, ["loud".toList, "a".toList])]
    ofValue repeating = .ok aliases ∧ Settled (entries repeating) ∧
      ∃ r, Registry.withAliases aliases = .ok r ∧
        ∀ key names, aliases.get? key = some names →
          ∃ above, Last (entries repeating) above key names ∧
            ∃ f, r.get? key = some f ∧
              ∀ t, f t = names.foldl (fun t n => meaning above.reverse n t) t := by
  intro aliases
  have h : ofValue repeating = .ok aliases := rfl
  exact ⟨h, settled_repeating, (withAliases_of_ofValue h).2.2 settled_repeating⟩

end TextGrammar.AliasFile
