/-
# `TextGrammar.Proofs.Yaml.Strictness` — what reading strictly changes

Reading strictly is meant to refuse a key that comes twice, and to change
nothing else.  But the keys are read before the mapping is, when a merge key
has not yet been replaced by the entries it adds, nor a default key by a text.
Neither has a value, so that a mapping with one of them is refused although no
key comes twice:

    parse_strict_iff    a text has a value read strictly if it has it read
                        loosely and the keys of every mapping are ordinary ones
                        and counted once
    parse_merging       a text whose keys differ, which has a value read
                        loosely only

Which nodes are read is told by `Reads`.  There is one step for each node of a
text, and what a node is filled with lies in it (`sizeItems_parts_lt`), so that
the steps are enough for all nodes that are read.
-/
import TextGrammar.Proofs.Yaml.Mapping
import TextGrammar.Proofs.Yaml.Node
import TextGrammar.Yaml.Content

namespace TextGrammar.Yaml

namespace Node

/-! ## Nodes that are read -/

/-- The pairs of a node that is read as a mapping. -/
def mappedPairs : Node → List (Node × Node)
  | .mapping _ .map pairs => pairs
  | .mapping _ .set pairs => pairs
  | _ => []

/-- The keys and values of items that are mappings of one pair each. -/
def sides : List Node → List Node
  | [] => []
  | .mapping _ _ [(k, v)] :: rest => k :: v :: sides rest
  | _ :: rest => sides rest

/-- The nodes that a node is filled with, if nothing is added to mappings. -/
def parts : Node → List Node
  | .sequence _ .seq items => items
  | .sequence _ .omap items => sides items
  | .sequence _ .pairs items => sides items
  | n => n.mappedPairs.map Prod.snd

/-- Reading the first node, the second one is filled. -/
inductive Reads : Node → Node → Prop
  | self (n : Node) : Reads n n
  | part {n m k : Node} : m ∈ n.parts → Reads m k → Reads n k

variable {n : Node} {ns items : List Node} {pairs : List (Node × Node)}

/-- What holds for all nodes that are read holds for the node itself, and for
all that are read with its parts. -/
theorem forall_reads {P : Node → Prop} :
    (∀ m, Reads n m → P m) ↔ P n ∧ ∀ k ∈ n.parts, ∀ m, Reads k m → P m := by
  constructor
  · intro h
    exact ⟨h n (.self n), fun k hk m hm => h m (.part hk hm)⟩
  · rintro ⟨hself, hparts⟩ m hm
    cases hm with
    | self => exact hself
    | part hk hm => exact hparts _ hk m hm

theorem size_pos (n : Node) : 0 < n.size := by
  cases n with
  | scalar line tag t => exact Nat.one_pos
  | sequence line tag items =>
    rw [size]
    exact Nat.succ_pos _
  | mapping line tag pairs =>
    rw [size]
    exact Nat.succ_pos _

theorem sizeItems_append (ms ns : List Node) :
    sizeItems (ms ++ ns) = sizeItems ms + sizeItems ns := by
  induction ms with
  | nil => rw [List.nil_append, sizeItems, Nat.zero_add]
  | cons m ms ih => rw [List.cons_append, sizeItems, sizeItems, ih, Nat.add_assoc]

theorem sizeItems_sides_le (items : List Node) : sizeItems (sides items) ≤ sizeItems items := by
  induction items using sides.induct with
  | case1 => exact Nat.le_refl _
  | case2 line tag k v rest ih =>
    simp only [sides, sizeItems, size, sizePairs]
    omega
  | case3 m rest hm ih =>
    rw [sides.eq_3 _ _ hm, sizeItems]
    omega

theorem sizeItems_snd_le (pairs : List (Node × Node)) :
    sizeItems (pairs.map Prod.snd) ≤ sizePairs pairs := by
  induction pairs with
  | nil => exact Nat.le_refl _
  | cons p pairs ih =>
    simp only [List.map_cons, sizeItems, sizePairs]
    omega

theorem sizeItems_parts_lt (n : Node) : sizeItems n.parts < n.size := by
  cases n with
  | scalar line tag t => exact size_pos _
  | sequence line tag items =>
    have hsides := sizeItems_sides_le items
    rw [size]
    cases tag with
    | seq => exact Nat.lt_succ_self _
    | omap => exact Nat.lt_succ_of_le hsides
    | pairs => exact Nat.lt_succ_of_le hsides
    | _ => exact Nat.succ_pos _
  | mapping line tag pairs =>
    have hsnd := sizeItems_snd_le pairs
    rw [size]
    cases tag with
    | map => exact Nat.lt_succ_of_le hsnd
    | set => exact Nat.lt_succ_of_le hsnd
    | _ => exact Nat.succ_pos _

/-! ## Keys -/

/-- No key is a merge key or a default key. -/
def OrdinaryKeys (pairs : List (Node × Node)) : Prop :=
  ∀ p ∈ pairs, p.1.tag ≠ .merge ∧ p.1.tag ≠ .value

theorem HaveKeys.ordinaryKeys (h : HaveKeys pairs) : OrdinaryKeys pairs :=
  fun p hp => tag_of_head (h p hp).1

theorem addedPairs_of_ordinaryKeys (h : OrdinaryKeys pairs) : addedPairs pairs = .ok [] := by
  induction pairs with
  | nil => rfl
  | cons p pairs ih =>
    obtain ⟨hp, hrest⟩ := List.forall_mem_cons.mp h
    obtain ⟨k, v⟩ := p
    rw [addedPairs, if_neg hp.1]
    exact ih hrest

theorem ownPairs_of_ordinaryKeys (h : OrdinaryKeys pairs) : ownPairs pairs = pairs := by
  induction pairs with
  | nil => rfl
  | cons p pairs ih =>
    obtain ⟨hp, hrest⟩ := List.forall_mem_cons.mp h
    obtain ⟨k, v⟩ := p
    rw [ownPairs, if_neg hp.1, asKey_of_tag hp.2, ih hrest]

/-- A mapping with ordinary keys is as it is written. -/
theorem flatPairs_of_ordinaryKeys (h : OrdinaryKeys pairs) : flatPairs pairs = .ok pairs := by
  rw [flatPairs, addedPairs_of_ordinaryKeys h, ownPairs_of_ordinaryKeys h]
  rfl

/-- Keys that are counted once, and were not there before, have no fault. -/
theorem keyFault?_eq_none {seen : List Value} (hkeys : HaveKeys pairs)
    (hfresh : ∀ p ∈ pairs, isCounted p.1.value = true → seen.contains p.1.value = false)
    (honce : CountedOnce pairs) : keyFault? seen pairs = none := by
  induction pairs generalizing seen with
  | nil => rfl
  | cons p pairs ih =>
    obtain ⟨hp, hrest⟩ := List.forall_mem_cons.mp hkeys
    obtain ⟨hseen, hunseen⟩ := List.forall_mem_cons.mp hfresh
    obtain ⟨hfirst, hothers⟩ := List.pairwise_cons.mp honce
    obtain ⟨k, v⟩ := p
    simp only [keyFault?, hp.1]
    by_cases hc : isCounted k.value = true
    · rw [if_pos hc, hseen hc]
      refine ih hrest (fun q hq hcq => ?_) hothers
      rw [List.contains_cons, hfirst q hq hc hcq, hunseen q hq hcq]
      rfl
    · rw [if_neg hc]
      exact ih hrest hunseen hothers

/-! ## What a node is filled with -/

theorem eq_snd_of_valuesOf (h : valuesOf pairs = .ok ns) : ns = pairs.map Prod.snd := by
  induction pairs generalizing ns with
  | nil =>
    cases h
    rfl
  | cons p pairs ih =>
    obtain ⟨k, v⟩ := p
    rw [valuesOf] at h
    obtain ⟨key, -, h⟩ := exists_of_bind_eq_ok h
    split at h
    · obtain ⟨-, -, h⟩ := exists_of_bind_eq_ok h
      obtain ⟨rest, hrest, h⟩ := exists_of_bind_eq_ok h
      cases h
      rw [ih hrest]
      rfl
    · cases h

theorem eq_sides_of_pairsOf (h : pairsOf items = .ok ns) : ns = sides items := by
  induction items using sides.induct generalizing ns with
  | case1 =>
    cases h
    rfl
  | case2 line tag k v rest ih =>
    rw [pairsOf] at h
    obtain ⟨-, -, h⟩ := exists_of_bind_eq_ok h
    obtain ⟨-, -, h⟩ := exists_of_bind_eq_ok h
    obtain ⟨rest', hrest, h⟩ := exists_of_bind_eq_ok h
    cases h
    rw [ih hrest, sides]
  | case3 m rest hm ih =>
    rw [pairsOf.eq_3 _ _ hm] at h
    cases h

/-- A mapping read strictly is filled with its values, provided that its keys
are counted once. -/
theorem mappingContent_strict (line : Nat) (tag : Tag) :
    mappingContent .strict (.mapping line tag pairs) = .ok ns ↔
      valuesOf pairs = .ok ns ∧ CountedOnce pairs := by
  rw [mappingContent]
  constructor
  · intro h
    split at h
    · cases h
    · next hkeys =>
      exact ⟨h, (countedOnce_of_keyFault? (haveKeys_of_valuesOf h) hkeys).2⟩
  · rintro ⟨h, honce⟩
    rw [keyFault?_eq_none (haveKeys_of_valuesOf h) (fun _ _ _ => rfl) honce]
    exact h

theorem mappingContent_loose (line : Nat) (tag : Tag) (h : OrdinaryKeys pairs) :
    mappingContent .loose (.mapping line tag pairs) = valuesOf pairs := by
  rw [mappingContent, flatPairs_of_ordinaryKeys h]
  rfl

/-- Of the two ways to fill a mapping the strict one asks for ordinary keys
that are counted once. -/
theorem mappingContent_iff (line : Nat) (tag : Tag) :
    mappingContent .strict (.mapping line tag pairs) = .ok ns ↔
      mappingContent .loose (.mapping line tag pairs) = .ok ns ∧
        OrdinaryKeys pairs ∧ CountedOnce pairs := by
  rw [mappingContent_strict]
  constructor
  · rintro ⟨h, honce⟩
    have hkeys := (haveKeys_of_valuesOf h).ordinaryKeys
    exact ⟨(mappingContent_loose line tag hkeys).trans h, hkeys, honce⟩
  · rintro ⟨h, hkeys, honce⟩
    exact ⟨(mappingContent_loose line tag hkeys).symm.trans h, honce⟩

/-- Nothing else is read as a mapping. -/
theorem mappingContent_scalar (how : Strictness) (line : Nat) (tag : Tag) (t : Text) :
    mappingContent how (.scalar line tag t) ≠ .ok ns := by
  intro h
  cases how <;> cases t <;> cases h

theorem mappingContent_sequence (how : Strictness) (line : Nat) (tag : Tag) (items : List Node) :
    mappingContent how (.sequence line tag items) ≠ .ok ns := by
  intro h
  cases how <;> cases items <;> cases h

/-- A node that is filled has keys to be read strictly. -/
def HasStrictKeys (n : Node) : Prop := OrdinaryKeys n.mappedPairs ∧ CountedOnce n.mappedPairs

theorem hasStrictKeys_nil : OrdinaryKeys [] ∧ CountedOnce [] :=
  ⟨List.forall_mem_nil _, List.Pairwise.nil⟩

theorem content_strict_iff :
    n.content .strict = .ok ns ↔ n.content .loose = .ok ns ∧ n.HasStrictKeys := by
  cases n with
  | scalar line tag t =>
    have hscalar : ∀ how, mappingContent how (.scalar line tag t) ≠ .ok ns := by
      intro how
      exact mappingContent_scalar how line tag t
    cases tag with
    | map | set => exact iff_of_false (hscalar .strict) (fun h => hscalar .loose h.1)
    | _ => exact (and_iff_left hasStrictKeys_nil).symm
  | sequence line tag items =>
    have hsequence : ∀ how, mappingContent how (.sequence line tag items) ≠ .ok ns := by
      intro how
      exact mappingContent_sequence how line tag items
    cases tag with
    | map | set => exact iff_of_false (hsequence .strict) (fun h => hsequence .loose h.1)
    | _ => exact (and_iff_left hasStrictKeys_nil).symm
  | mapping line tag pairs =>
    cases tag with
    | map => exact mappingContent_iff line .map
    | set => exact mappingContent_iff line .set
    | _ => exact (and_iff_left hasStrictKeys_nil).symm

/-- A node that is read strictly is filled with its parts. -/
theorem eq_parts_of_content (h : n.content .strict = .ok ns) : ns = n.parts := by
  cases n with
  | scalar line tag t =>
    cases tag with
    | map | set => exact absurd h (mappingContent_scalar _ _ _ _)
    | seq | omap | pairs => cases h
    | _ =>
      cases h
      rfl
  | sequence line tag items =>
    cases tag with
    | seq =>
      obtain ⟨-, -, h⟩ := exists_of_bind_eq_ok h
      cases h
      rfl
    | omap | pairs => exact eq_sides_of_pairsOf h
    | map | set => exact absurd h (mappingContent_sequence _ _ _ _)
    | _ =>
      cases h
      rfl
  | mapping line tag pairs =>
    cases tag with
    | map => exact eq_snd_of_valuesOf ((mappingContent_strict line .map).mp h).1
    | set => exact eq_snd_of_valuesOf ((mappingContent_strict line .set).mp h).1
    | seq | omap | pairs => cases h
    | _ =>
      cases h
      rfl

/-! ## The whole text -/

/-- Read strictly and loosely, nodes are without fault alike, but for the keys
of what is read with them.  The steps are enough for all nodes in the queue. -/
theorem faultFrom_strict_iff {steps : Nat} (hsteps : sizeItems ns ≤ steps) :
    faultFrom .strict steps ns = none ↔
      faultFrom .loose steps ns = none ∧ ∀ n ∈ ns, ∀ m, Reads n m → m.HasStrictKeys := by
  induction steps generalizing ns with
  | zero =>
    cases ns with
    | nil => exact (and_iff_left (List.forall_mem_nil _)).symm
    | cons n ns =>
      rw [sizeItems] at hsteps
      have hpos := n.size_pos
      omega
  | succ steps ih =>
    cases ns with
    | nil => exact (and_iff_left (List.forall_mem_nil _)).symm
    | cons n rest =>
      have hqueue : sizeItems (rest ++ n.parts) ≤ steps := by
        rw [sizeItems] at hsteps
        have hparts := n.sizeItems_parts_lt
        rw [sizeItems_append]
        omega
      simp only [faultFrom]
      constructor
      · intro h
        split at h
        · cases h
        · next ns hstrict =>
          obtain ⟨hloose, hkeys⟩ := content_strict_iff.mp hstrict
          rw [eq_parts_of_content hstrict] at h hloose
          obtain ⟨hrest, hall⟩ := (ih hqueue).mp h
          obtain ⟨hothers, hparts⟩ := List.forall_mem_append.mp hall
          rw [hloose]
          exact ⟨hrest, List.forall_mem_cons.mpr ⟨forall_reads.mpr ⟨hkeys, hparts⟩, hothers⟩⟩
      · rintro ⟨h, hall⟩
        obtain ⟨hfirst, hothers⟩ := List.forall_mem_cons.mp hall
        obtain ⟨hkeys, hparts⟩ := forall_reads.mp hfirst
        split at h
        · cases h
        · next ns hloose =>
          have hstrict := content_strict_iff.mpr ⟨hloose, hkeys⟩
          rw [eq_parts_of_content hstrict] at h hstrict
          rw [hstrict]
          exact (ih hqueue).mpr ⟨h, List.forall_mem_append.mpr ⟨hothers, hparts⟩⟩

theorem fault?_strict_iff :
    n.fault? .strict = none ↔ n.fault? .loose = none ∧ ∀ m, Reads n m → m.HasStrictKeys := by
  have hsteps : sizeItems [n] ≤ n.size := Nat.le_of_eq (Nat.add_zero _)
  rw [fault?, fault?]
  cases n.head with
  | error f =>
    constructor
    · intro h
      cases h
    · rintro ⟨h, -⟩
      cases h
  | ok v =>
    refine (faultFrom_strict_iff hsteps).trans (and_congr_right fun _ => ?_)
    rw [List.forall_mem_singleton]

theorem read_strict_iff {v : Value} :
    n.read .strict = .ok v ↔ n.read .loose = .ok v ∧ ∀ m, Reads n m → m.HasStrictKeys := by
  have hread : ∀ how, n.read how = .ok v ↔ n.fault? how = none ∧ n.value = v := by
    intro how
    rw [read]
    constructor
    · intro h
      split at h
      · cases h
      · next hfault => exact ⟨hfault, Except.ok.inj h⟩
    · rintro ⟨hfault, rfl⟩
      rw [hfault]
  rw [hread, hread, fault?_strict_iff, and_right_comm]

end Node

open Node

/-- A text has a value read strictly if and only if it has that value read
loosely, and no mapping that is read has a merge key, a default key or a counted
key twice. -/
theorem parse_strict_iff (t : Text) (v : Value) :
    parse .strict t = .ok v ↔
      parse .loose t = .ok v ∧
        ∀ n, node? t = .ok (some n) → ∀ m, n.Reads m →
          OrdinaryKeys m.mappedPairs ∧ CountedOnce m.mappedPairs := by
  rw [parse, parse]
  cases node? t with
  | error f =>
    constructor
    · intro h
      cases h
    · rintro ⟨h, -⟩
      cases h
  | ok n? =>
    cases n? with
    | none =>
      refine (and_iff_left fun n hn => ?_).symm
      cases hn
    | some n =>
      refine read_strict_iff.trans (and_congr_right fun _ => ?_)
      constructor
      · intro h k hk
        cases hk
        exact h
      · intro h
        exact h n rfl

/-- A text of two mappings, one of them merged into the other. -/
def merging : Text := "<<: {animal: [owl]}\norigin: '#animal#'\n".toList

/-- The node of `merging`. -/
def mergingNode : Node :=
  .mapping 0 .map [
    (.scalar 0 .merge "<<".toList,
      .mapping 0 .map [
        (.scalar 0 .str "animal".toList, .sequence 0 .seq [.scalar 0 .str "owl".toList])]),
    (.scalar 1 .str "origin".toList, .scalar 1 .str "#animal#".toList)]

/-- No key is there twice, and the text has a value read loosely alone. -/
theorem parse_merging :
    node? merging = .ok (some mergingNode) ∧
      (∀ m, mergingNode.Reads m →
        m.mappedPairs.Pairwise fun p q => (q.1.value == p.1.value) = false) ∧
      parse .loose merging = .ok (.dict [
        (.str "animal".toList, .list [.str "owl".toList]),
        (.str "origin".toList, .str "#animal#".toList)]) ∧
      parse .strict merging = .error .malformed := by
  have hnode : node? merging = .ok (some mergingNode) := eq_ok_of_toOption (by decide +kernel)
  refine ⟨hnode, ?_, ?_, ?_⟩
  · have hscalar : ∀ (line : Nat) (tag : Tag) (t : Text) (m : Node), Reads (.scalar line tag t) m →
        m.mappedPairs.Pairwise fun p q => (q.1.value == p.1.value) = false := by
      intro line tag t
      exact forall_reads.mpr ⟨List.Pairwise.nil, List.forall_mem_nil _⟩
    refine forall_reads.mpr ⟨by decide, List.forall_mem_cons.mpr ⟨?_, ?_⟩⟩
    · refine forall_reads.mpr ⟨List.pairwise_singleton _ _, List.forall_mem_singleton.mpr ?_⟩
      exact forall_reads.mpr ⟨List.Pairwise.nil, List.forall_mem_singleton.mpr (hscalar _ _ _)⟩
    · exact List.forall_mem_singleton.mpr (hscalar _ _ _)
  · rw [parse, hnode]
    rfl
  · rw [parse, hnode]
    rfl

end TextGrammar.Yaml
