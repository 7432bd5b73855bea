/-
# `TextGrammar.Proofs.Grammar.File` — what a grammar keeps of its file

A symbol that is defined twice is refused at two places: where the mapping of a
YAML file is read, texts, integers and truth values among its keys have to
differ, and where whole numbers are written out, the names that result have to.
Between the two the pairs are put in a dictionary, in which a fraction is the
same key as the integer that it is worth.  A fraction alone is no symbol, but
one that comes after its integer leaves no trace there except the value, so
that in

    1: a
    1.0: b

the candidate `a` is gone and nothing is reported.  This is the only way in
which a grammar can lose a pair of its file:

    keeps_iff    a grammar that is valid keeps every pair iff no integer among
                 the keys is followed by a fraction that is worth as much
-/
import TextGrammar.Grammar.File
import TextGrammar.Proofs.Assoc.Distinct
import TextGrammar.Proofs.Grammar.Validation
import TextGrammar.Proofs.Yaml.Mapping

namespace TextGrammar.GrammarFile

open Yaml (Node)

variable {before raw es : List (Value × Value)} {pairs : List (Node × Node)} {g : Grammar}

/-! ## Names -/

/-- A key names a symbol: a text names itself, an integer is written out. -/
inductive Names : Value → Text → Prop
  | text {t : Text} : Names (.str t) t
  | integer {n : Int} : Names (.int n) (Text.ofInt n)

theorem names_of_symbolKey {k : Value} {name : Text} (h : symbolKey k = .str name) :
    Names k name := by
  cases k with
  | str t =>
    cases h
    exact .text
  | int n =>
    cases h
    exact .integer
  | _ => cases h

/-- Naming changes the keys alone, and no two names are the same. -/
theorem eq_map_of_nameEntries
    (h : nameEntries before es = .ok raw) (hbefore : Assoc.Distinct before) :
    raw = before ++ es.map (fun e => (symbolKey e.1, e.2)) ∧ Assoc.Distinct raw := by
  induction es generalizing before with
  | nil =>
    cases h
    exact ⟨(List.append_nil _).symm, hbefore⟩
  | cons e es ih =>
    obtain ⟨k, v⟩ := e
    rw [nameEntries] at h
    split at h
    · cases h
    · next hk =>
      rw [Bool.not_eq_true, Assoc.contains_eq_false_iff] at hk
      obtain ⟨hmap, hraw⟩ := ih h (Assoc.distinct_append_singleton_iff.mpr ⟨hbefore, hk⟩)
      refine ⟨?_, hraw⟩
      rw [hmap, List.append_assoc, List.singleton_append, List.map_cons]

/-! ## Integers and fractions -/

/-- The second key is a fraction that takes the place of the first one, an
integer. -/
def replaces : Value → Value → Bool
  | .int n, .float x => x.int? == some n
  | _, _ => false

/-- No integer is followed by a fraction that takes its place. -/
def NoneReplaced (pairs : List (Node × Node)) : Prop :=
  pairs.Pairwise fun p q => replaces p.1.value q.1.value = false

theorem same_of_replaces {k k' : Value} (h : replaces k k' = true) : (k' == k) = true := by
  cases k with
  | int n =>
    cases k' with
    | float x =>
      have hx : x.int? = some n := eq_of_beq h
      show (x.int?.isSome && x.int? == some n) = true
      rw [hx]
      exact beq_self_eq_true (some n)
    | _ => cases h
  | _ => cases h

/-- A key that is the same as a name before it is counted as well, or takes its
place. -/
theorem counted_or_replaces {k k' : Value} {name : Text} (hk : Names k name)
    (h : (k' == k) = true) :
    Node.isCounted k = true ∧ Node.isCounted k' = true ∨ replaces k k' = true := by
  cases hk with
  | text =>
    cases k' with
    | str t => exact .inl ⟨rfl, rfl⟩
    | float x =>
      have hx : (x.int?.isSome && x.int? == none) = true := h
      cases hi : x.int? <;> simp [hi] at hx
    | _ => cases h
  | @integer n =>
    cases k' with
    | bool b => exact .inl ⟨rfl, rfl⟩
    | int m => exact .inl ⟨rfl, rfl⟩
    | float x =>
      have hx : (x.int?.isSome && x.int? == some n) = true := h
      exact .inr (Bool.and_eq_true_iff.mp hx).2
    | _ => cases h

/-- If every key that is left names a symbol, then a pair can only be lost to a
fraction. -/
theorem distinct_of_noneReplaced
    (hnames : ∀ k ∈ Assoc.keys (Assoc.ofEntries (Node.entries pairs)), ∃ name, Names k name)
    (honce : Node.CountedOnce pairs) (hnone : NoneReplaced pairs) :
    Assoc.Distinct (Node.entries pairs) := by
  -- in the order of reading, so that the keys met so far stand in the dictionary as they are
  induction pairs using List.reverseRecOn with
  | nil => exact List.Pairwise.nil
  | append_singleton pairs q ih =>
    rw [Node.entries, List.map_append] at hnames ⊢
    obtain ⟨honce, -, honceq⟩ := List.pairwise_append.mp honce
    obtain ⟨hnone, -, hnoneq⟩ := List.pairwise_append.mp hnone
    have hpairs : Assoc.Distinct (Node.entries pairs) :=
      ih (fun k hk => hnames k (Assoc.mem_keys_ofEntries_append hk)) honce hnone
    refine Assoc.distinct_append_singleton_iff.mpr ⟨hpairs, ?_⟩
    intro e he
    obtain ⟨p, hp, rfl⟩ := List.mem_map.mp he
    have hkey : p.1.value ∈ Assoc.keys (Assoc.ofEntries (Node.entries pairs)) := by
      rw [Assoc.ofEntries_of_distinct hpairs]
      exact List.mem_map.mpr ⟨_, he, rfl⟩
    obtain ⟨name, hname⟩ := hnames _ (Assoc.mem_keys_ofEntries_append hkey)
    rw [← Bool.not_eq_true]
    intro hsame
    rcases counted_or_replaces hname hsame with ⟨hp', hq'⟩ | hreplaces
    · rw [honceq p hp q List.mem_cons_self hp' hq'] at hsame
      cases hsame
    · rw [hnoneq p hp q List.mem_cons_self] at hreplaces
      cases hreplaces

/-! ## Grammars and the pairs of their files -/

/-- A grammar has one symbol for each entry, and under the key of an entry the
candidates that its value gives. -/
structure Keeps (g : Grammar) (es : List (Value × Value)) : Prop where
  nodup : g.keys.Nodup
  length : g.length = es.length
  get : ∀ e ∈ es, ∃ name candidates, Names e.1 name ∧ Validation.Gives e.2 candidates ∧
    g.get? name = some candidates

/-- A valid grammar keeps every entry of the dictionary that it was made
from. -/
theorem keeps_of_validate {file : Option Text} (hnames : nameEntries [] es = .ok raw)
    (hvalid : Validation.validate raw file = .ok g) : Keeps g es := by
  obtain ⟨rfl, hdistinct⟩ := eq_map_of_nameEntries hnames List.Pairwise.nil
  rw [List.nil_append] at hvalid hdistinct
  have hkeys := Validation.keys_of_validate hvalid
  have hnodup : g.keys.Nodup := by
    have hpairwise : (g.keys.map Value.str).Pairwise fun k k' => (k' == k) = false := by
      rw [← hkeys]
      exact List.pairwise_map.mpr hdistinct
    refine (List.pairwise_map.mp hpairwise).imp ?_
    rintro name name' hne rfl
    exact Bool.false_ne_true (hne.symm.trans (beq_self_eq_true name))
  refine ⟨hnodup, ?_, ?_⟩
  · have hlength := congrArg List.length hkeys
    rw [List.length_map, List.length_map, List.length_map, Assoc.keys, List.length_map] at hlength
    exact hlength.symm
  · intro e he
    obtain ⟨name, candidates, hname, hgives, hmem⟩ :=
      Validation.exists_of_validate hvalid (List.mem_map.mpr ⟨e, he, rfl⟩)
    exact ⟨name, candidates, names_of_symbolKey hname, hgives,
      (Assoc.get?_eq_some_iff hnodup).mpr hmem⟩

/-- A grammar whose file is read strictly keeps every pair if and only if none
is lost to a fraction. -/
theorem keeps_iff {file : Option Text} {line : Nat} {tag : Yaml.Tag}
    (hread : (Node.mapping line tag pairs).read .strict = .ok (.dict es))
    (hnames : nameEntries [] es = .ok raw) (hvalid : Validation.validate raw file = .ok g) :
    Keeps g (Node.entries pairs) ↔ NoneReplaced pairs := by
  have hkeeps := keeps_of_validate hnames hvalid
  obtain ⟨rfl, -, honce⟩ := Node.read_strict hread
  constructor
  · intro h
    have hdistinct : Assoc.Distinct (Node.entries pairs) :=
      Assoc.distinct_of_length_ofEntries (hkeeps.length.symm.trans h.length)
    refine (List.pairwise_map.mp hdistinct).imp ?_
    intro p q hpq
    rw [← Bool.not_eq_true] at hpq ⊢
    intro hreplaces
    exact hpq (same_of_replaces hreplaces)
  · intro hnone
    have hdistinct : Assoc.Distinct (Node.entries pairs) := by
      refine distinct_of_noneReplaced ?_ honce hnone
      intro k hk
      obtain ⟨e, he, rfl⟩ := List.mem_map.mp hk
      obtain ⟨name, -, hname, -⟩ := hkeeps.get e he
      exact ⟨name, hname⟩
    rwa [Assoc.ofEntries_of_distinct hdistinct] at hkeeps

/-- A YAML file that is loaded is read strictly. -/
theorem read_of_load {tree : FileTree} {p : Path} {t : Text} {n : Node}
    (hformat : Format.ofPath? p = some .yaml) (ht : tree.readText p = .ok t)
    (hn : Yaml.node? t = .ok (some n)) (h : load tree p = .ok raw) :
    ∃ es, n.read .strict = .ok (.dict es) ∧ nameEntries [] es = .ok raw := by
  rw [load] at h
  split at h
  · cases h
  · have hparse : Yaml.parse .strict t = n.read .strict := by
      rw [Yaml.parse, hn]
      rfl
    simp only [hformat, ht, parse, hparse] at h
    cases hread : n.read .strict with
    | error f =>
      rw [hread] at h
      cases h
    | ok v =>
      rw [hread] at h
      cases v with
      | dict es => exact ⟨es, rfl, h⟩
      | _ => cases h

end TextGrammar.GrammarFile
