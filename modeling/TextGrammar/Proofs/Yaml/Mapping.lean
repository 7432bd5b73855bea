/-
# `TextGrammar.Proofs.Yaml.Mapping` — mappings that are read strictly

Read strictly, a mapping has no merge keys and its dictionary is made of its
pairs, one after the other.  No text, integer or truth value is there twice
among the keys.  That is not to say that all keys differ, for a fraction can be
the same key as an integer and is not looked at:

    read_strict    what a dictionary read strictly is, and what its keys are
-/
import TextGrammar.Yaml.Content

namespace TextGrammar.Yaml.Node

variable {n : Node} {key : Value} {pairs : List (Node × Node)}

/-- Both steps of a reading that ends well end well. -/
theorem exists_of_bind_eq_ok {ε α β : Type} {r : Except ε α} {f : α → Except ε β} {b : β}
    (h : r >>= f = .ok b) : ∃ a, r = .ok a ∧ f a = .ok b := by
  cases r with
  | error e => cases h
  | ok a => exact ⟨a, rfl, h⟩

/-! ## Keys -/

theorem headValue_of_head (h : n.head = .ok key) : n.headValue = key := by
  rw [headValue, h]
  rfl

/-- A key is worth what stands for it at once. -/
theorem value_of_head (h : n.head = .ok key) (hkey : key.isKey = true) : n.value = key := by
  cases n with
  | scalar line tag t => exact headValue_of_head h
  | sequence line tag items =>
    cases tag with
    | seq | omap | pairs =>
      cases h
      cases hkey
    | _ => exact headValue_of_head h
  | mapping line tag pairs =>
    cases tag with
    | map | set | seq | omap | pairs =>
      cases h
      cases hkey
    | _ => exact headValue_of_head h

/-- A node that has a head is no merge key and no default key. -/
theorem tag_of_head (h : n.head = .ok key) : n.tag ≠ .merge ∧ n.tag ≠ .value := by
  constructor
  · intro htag
    rw [head, htag] at h
    cases h
  · intro htag
    rw [head, htag] at h
    cases h

theorem asKey_of_tag (h : n.tag ≠ .value) : n.asKey = n := by
  cases n with
  | scalar line tag t => cases tag <;> first | rfl | exact absurd rfl h
  | sequence line tag items => cases tag <;> first | rfl | exact absurd rfl h
  | mapping line tag pairs => cases tag <;> first | rfl | exact absurd rfl h

/-! ## Pairs -/

/-- The entries that pairs stand for. -/
def entries (pairs : List (Node × Node)) : List (Value × Value) :=
  pairs.map fun p => (p.1.value, p.2.value)

/-- Every key has a value, which can be one of a dictionary. -/
def HaveKeys (pairs : List (Node × Node)) : Prop :=
  ∀ p ∈ pairs, p.1.head = .ok p.1.value ∧ p.1.value.isKey = true

/-- No key that is counted is the same as one before it that is counted. -/
def CountedOnce (pairs : List (Node × Node)) : Prop :=
  pairs.Pairwise fun p q => isCounted p.1.value = true → isCounted q.1.value = true →
    (q.1.value == p.1.value) = false

theorem haveKeys_of_valuesOf {ns : List Node} (h : valuesOf pairs = .ok ns) :
    HaveKeys pairs := by
  induction pairs generalizing ns with
  | nil => exact List.forall_mem_nil _
  | cons p pairs ih =>
    obtain ⟨k, v⟩ := p
    rw [valuesOf] at h
    obtain ⟨key, hk, h⟩ := exists_of_bind_eq_ok h
    split at h
    · next hkey =>
      obtain ⟨-, -, h⟩ := exists_of_bind_eq_ok h
      obtain ⟨ns', hrest, -⟩ := exists_of_bind_eq_ok h
      rw [HaveKeys, List.forall_mem_cons, value_of_head hk hkey]
      exact ⟨⟨hk, hkey⟩, ih hrest⟩
    · cases h

theorem countedOnce_of_keyFault? {seen : List Value} (hkeys : HaveKeys pairs)
    (h : keyFault? seen pairs = none) :
    (∀ p ∈ pairs, isCounted p.1.value = true → seen.contains p.1.value = false) ∧
      CountedOnce pairs := by
  induction pairs generalizing seen with
  | nil => exact ⟨List.forall_mem_nil _, List.Pairwise.nil⟩
  | cons p pairs ih =>
    obtain ⟨hp, hrest⟩ := List.forall_mem_cons.mp hkeys
    obtain ⟨k, v⟩ := p
    simp only [keyFault?, hp.1] at h
    by_cases hc : isCounted k.value = true
    · rw [if_pos hc] at h
      split at h
      · cases h
      · next hseen =>
        obtain ⟨hfresh, honce⟩ := ih hrest h
        constructor
        · rw [List.forall_mem_cons]
          refine ⟨fun _ => Bool.eq_false_iff.mpr hseen, fun q hq hcq => ?_⟩
          have hq' := hfresh q hq hcq
          rw [List.contains_cons, Bool.or_eq_false_iff] at hq'
          exact hq'.2
        · refine List.Pairwise.cons (fun q hq _ hcq => ?_) honce
          have hq' := hfresh q hq hcq
          rw [List.contains_cons, Bool.or_eq_false_iff] at hq'
          exact hq'.1
    · rw [if_neg hc] at h
      obtain ⟨hfresh, honce⟩ := ih hrest h
      constructor
      · rw [List.forall_mem_cons]
        exact ⟨fun hck => absurd hck hc, hfresh⟩
      · exact List.Pairwise.cons (fun q hq hck => absurd hck hc) honce

/-- Without merge keys nothing is added to a mapping. -/
theorem addedEntries_eq_nil (h : HaveKeys pairs) : addedEntries pairs = [] := by
  induction pairs with
  | nil => rfl
  | cons p pairs ih =>
    obtain ⟨hp, hrest⟩ := List.forall_mem_cons.mp h
    obtain ⟨k, v⟩ := p
    rw [addedEntries, if_neg (tag_of_head hp.1).1]
    exact ih hrest

theorem ownEntries_eq_entries (h : HaveKeys pairs) : ownEntries pairs = entries pairs := by
  induction pairs with
  | nil => rfl
  | cons p pairs ih =>
    obtain ⟨hp, hrest⟩ := List.forall_mem_cons.mp h
    obtain ⟨k, v⟩ := p
    have htag := tag_of_head hp.1
    rw [ownEntries, if_neg htag.1, asKey_of_tag htag.2, headValue_of_head hp.1, ih hrest]
    rfl

/-! ## Dictionaries -/

theorem isKey_of_timestamp {t : Text} {v : Value} (h : Scalar.timestamp t = .ok v) :
    v.isKey = true := by
  rw [Scalar.timestamp] at h
  split at h
  · cases h
  · dsimp only at h
    split at h <;> split at h <;> cases h <;> rfl

/-- No scalar is worth something that can grow. -/
theorem isKey_of_scalar {tag : Tag} {t : Text} {v : Value} (h : Scalar.value tag t = .ok v) :
    v.isKey = true := by
  have hmap : ∀ {α : Type} {r : Except Fault α} {f : α → Value},
      (∀ a, (f a).isKey = true) → f <$> r = .ok v → v.isKey = true := by
    intro α r f hf hr
    cases r with
    | error why => cases hr
    | ok a =>
      cases hr
      exact hf a
  cases tag with
  | bool | int | float | binary => exact hmap (fun _ => rfl) h
  | timestamp => exact isKey_of_timestamp h
  | null | str =>
    cases h
    rfl
  | _ => cases h

theorem tag_of_head_eq_dict {es : List (Value × Value)} (h : n.head = .ok (.dict es)) :
    n.tag = .map := by
  rw [head] at h
  split at h
  · cases h
  · cases h
  · cases h
  · assumption
  · cases h
  · cases h
  · cases h
  · cases h
  · obtain ⟨t, -, h⟩ := exists_of_bind_eq_ok h
    cases isKey_of_scalar h

/-- A node without fault has a head and something to be filled with. -/
theorem content_of_fault? {how : Strictness} (h : n.fault? how = none) :
    (∃ v, n.head = .ok v) ∧ ∃ ns, n.content how = .ok ns := by
  rw [fault?] at h
  split at h
  · cases h
  · next v hhead =>
    obtain ⟨steps, hsize⟩ : ∃ steps, n.size = steps + 1 := by
      cases n <;> exact ⟨_, by rw [size]⟩
    rw [hsize, faultFrom] at h
    split at h
    · cases h
    · next ns hns => exact ⟨⟨v, hhead⟩, ns, hns⟩

/-- **What a dictionary read strictly is.** -/
theorem read_strict {line : Nat} {tag : Tag} {es : List (Value × Value)}
    (h : (Node.mapping line tag pairs).read .strict = .ok (.dict es)) :
    es = Assoc.ofEntries (entries pairs) ∧ HaveKeys pairs ∧ CountedOnce pairs := by
  rw [read] at h
  split at h
  · cases h
  · next hfault =>
    obtain ⟨⟨v, hhead⟩, ns, hcontent⟩ := content_of_fault? hfault
    have hvalue : (Node.mapping line tag pairs).value = .dict es := Except.ok.inj h
    have htag : tag = .map := by
      cases tag with
      | map => rfl
      | set => cases hvalue
      | _ =>
        have hv := (headValue_of_head hhead).symm.trans hvalue
        exact tag_of_head_eq_dict (hv ▸ hhead)
    subst htag
    replace hcontent : mappingContent .strict (.mapping line .map pairs) = .ok ns := hcontent
    rw [mappingContent] at hcontent
    split at hcontent
    · cases hcontent
    · next hkeys =>
      have hpairs := haveKeys_of_valuesOf hcontent
      refine ⟨?_, hpairs, (countedOnce_of_keyFault? hpairs hkeys).2⟩
      rw [value, addedEntries_eq_nil hpairs, ownEntries_eq_entries hpairs] at hvalue
      exact (Value.dict.inj hvalue).symm

end TextGrammar.Yaml.Node
