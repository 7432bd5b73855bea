/-
# `TextGrammar.Proofs.Json.Document` — documents and their objects

A document is a tree of arrays and objects.  It is written by its tokens
(`tokens`), and has a value as long as no key of an object is repeated.  The
objects of a document stand in a list in the order in which they close
(`objects`): what is within an object comes before it.

    parse_of_written    the parser gives the value of the document, or the
                        first repeated key of the first object that has one

The parser meets the objects in just this order, and refuses the first one at
the moment it is closed.  So the induction takes the run from the token that
starts a document to the parser that has its value in hand, whatever is open
around it; `closing` is what the objects in between do to that run.
-/
import Mathlib.Data.List.Nodup
import TextGrammar.Json.Parser
import TextGrammar.Proofs.Json.Lexeme

namespace TextGrammar.Json

/-! ## Documents -/

/-- A JSON document. -/
inductive Document where
  | scalar (s : Scalar)
  | text (t : Text)
  | array (items : List Document)
  | object (members : List (Text × Document))

namespace Document

mutual

/-- The tokens that write a document. -/
def tokens : Document → List Token
  | .scalar s => [.scalar (.ok s.value)]
  | .text t => [.text (.ok t)]
  | .array [] => [.openArray, .closeArray]
  | .array (d :: ds) => .openArray :: (tokens d ++ laterItems ds)
  | .object [] => [.openObject, .closeObject]
  | .object ((k, d) :: ms) =>
    .openObject :: .text (.ok k) :: .colon :: (tokens d ++ laterMembers ms)

/-- The tokens behind an item of an array, up to its end. -/
def laterItems : List Document → List Token
  | [] => [.closeArray]
  | d :: ds => .comma :: (tokens d ++ laterItems ds)

/-- The tokens behind a member of an object, up to its end. -/
def laterMembers : List (Text × Document) → List Token
  | [] => [.closeObject]
  | (k, d) :: ms => .comma :: .text (.ok k) :: .colon :: (tokens d ++ laterMembers ms)

end

/-- The entry of a dictionary for a member. -/
def entry (m : Text × Value) : Value × Value := (.str m.1, m.2)

mutual

/-- The value of a document. -/
def value : Document → Value
  | .scalar s => s.value
  | .text t => .str t
  | .array items => .list (values items)
  | .object members => .dict ((pairs members).map entry)

/-- The value of each item. -/
def values : List Document → List Value
  | [] => []
  | d :: ds => value d :: values ds

/-- The members with their values. -/
def pairs : List (Text × Document) → List (Text × Value)
  | [] => []
  | (k, d) :: ms => (k, value d) :: pairs ms

end

mutual

/-- The objects within a document in the order in which they close, each with
its members. -/
def objects : Document → List (List (Text × Value))
  | .scalar _ => []
  | .text _ => []
  | .array items => objectsOfItems items
  | .object members => objectsOfMembers members ++ [pairs members]

/-- The objects within the items. -/
def objectsOfItems : List Document → List (List (Text × Value))
  | [] => []
  | d :: ds => objects d ++ objectsOfItems ds

/-- The objects within the members. -/
def objectsOfMembers : List (Text × Document) → List (List (Text × Value))
  | [] => []
  | (_, d) :: ms => objects d ++ objectsOfMembers ms

end

/-- A document stands in another one, at any depth. -/
inductive Within (d : Document) : Document → Prop
  | self : Within d d
  | item {e : Document} {items : List Document} : e ∈ items → Within d e → Within d (.array items)
  | member {k : Text} {e : Document} {members : List (Text × Document)} : (k, e) ∈ members →
      Within d e → Within d (.object members)

/-- No object repeats a key, at any depth. -/
def KeysOnce (d : Document) : Prop :=
  ∀ members, Within (.object members) d → (members.map (·.1)).Nodup

/-- A text writes a document. -/
def WrittenAs (d : Document) (t : Text) : Prop := Written d.tokens t

theorem pairs_eq_map (members : List (Text × Document)) :
    pairs members = members.map fun m => (m.1, m.2.value) := by
  induction members with
  | nil => rfl
  | cons m ms ih =>
    obtain ⟨k, d⟩ := m
    rw [pairs, ih, List.map_cons]

theorem keys_pairs (members : List (Text × Document)) :
    (pairs members).map (·.1) = members.map (·.1) := by
  rw [pairs_eq_map, List.map_map]
  rfl

/-! ## Objects within a document -/

theorem objectsOfItems_eq_flatMap (items : List Document) :
    objectsOfItems items = items.flatMap objects := by
  induction items with
  | nil => rfl
  | cons d ds ih => rw [objectsOfItems, ih, List.flatMap_cons]

theorem objectsOfMembers_eq_flatMap (members : List (Text × Document)) :
    objectsOfMembers members = members.flatMap fun m => m.2.objects := by
  induction members with
  | nil => rfl
  | cons m ms ih =>
    obtain ⟨k, d⟩ := m
    rw [objectsOfMembers, ih, List.flatMap_cons]

theorem pairs_mem_objects {d : Document} {members : List (Text × Document)}
    (h : Within (.object members) d) : pairs members ∈ d.objects := by
  induction h with
  | self =>
    rw [objects]
    exact List.mem_append_right _ List.mem_cons_self
  | item he _ ih =>
    rw [objects, objectsOfItems_eq_flatMap]
    exact List.mem_flatMap.mpr ⟨_, he, ih⟩
  | member he _ ih =>
    rw [objects, objectsOfMembers_eq_flatMap]
    exact List.mem_append_left _ (List.mem_flatMap.mpr ⟨_, he, ih⟩)

/-- What closes within a document stands in it. -/
theorem exists_within : ∀ (d : Document) {o : List (Text × Value)}, o ∈ d.objects →
    ∃ members, Within (.object members) d ∧ pairs members = o
  | .scalar _, o, h => by
    rw [objects] at h
    cases h
  | .text _, o, h => by
    rw [objects] at h
    cases h
  | .array items, o, h => by
    rw [objects, objectsOfItems_eq_flatMap] at h
    obtain ⟨e, he, ho⟩ := List.mem_flatMap.mp h
    have hsize := List.sizeOf_lt_of_mem he
    obtain ⟨members, hwithin, hpairs⟩ := exists_within e ho
    exact ⟨members, .item he hwithin, hpairs⟩
  | .object ms, o, h => by
    rw [objects, objectsOfMembers_eq_flatMap] at h
    rcases List.mem_append.mp h with h | h
    · obtain ⟨⟨k, e⟩, he, ho⟩ := List.mem_flatMap.mp h
      have hsize := List.sizeOf_lt_of_mem he
      obtain ⟨members, hwithin, hpairs⟩ := exists_within e ho
      exact ⟨members, .member he hwithin, hpairs⟩
    · exact ⟨ms, .self, (List.mem_singleton.mp h).symm⟩
termination_by d => sizeOf d
decreasing_by
  · simp only [Document.array.sizeOf_spec]
    omega
  · simp only [Prod.mk.sizeOf_spec] at hsize
    simp only [Document.object.sizeOf_spec]
    omega

theorem keysOnce_iff {d : Document} :
    d.KeysOnce ↔ ∀ o ∈ d.objects, (o.map (·.1)).Nodup := by
  constructor
  · intro h o ho
    obtain ⟨members, hwithin, rfl⟩ := exists_within d ho
    rw [keys_pairs]
    exact h members hwithin
  · intro h members hwithin
    rw [← keys_pairs]
    exact h _ (pairs_mem_objects hwithin)

end Document

/-! ## Repeated keys -/

open Document

/-- The first key of an object that equals an earlier one. -/
def FirstRepeat (members : List (Text × Value)) (k : Text) : Prop :=
  ∃ front back, members.map (·.1) = front ++ k :: back ∧ front.Nodup ∧ k ∈ front

/-- The first repeated key of the first object that has one. -/
def Document.RefusedFor (d : Document) (k : Text) : Prop :=
  ∃ before members after, d.objects = before ++ members :: after ∧
    (∀ ms ∈ before, (ms.map (·.1)).Nodup) ∧ FirstRepeat members k

variable {members : List (Text × Value)} {k : Text}

theorem repeatedFrom_eq_none_iff {seen : List Text} (hseen : seen.Nodup) :
    repeatedFrom seen members = none ↔ (seen.reverse ++ members.map (·.1)).Nodup := by
  induction members generalizing seen with
  | nil => simpa [repeatedFrom, List.nodup_reverse] using hseen
  | cons m members ih =>
    obtain ⟨k, v⟩ := m
    rw [repeatedFrom]
    by_cases hk : k ∈ seen
    · rw [if_pos (List.contains_iff_mem.mpr hk)]
      constructor
      · intro h
        cases h
      · intro h
        exact absurd rfl
          ((List.nodup_append.mp h).2.2 k (List.mem_reverse.mpr hk) k List.mem_cons_self)
    · have hcons : (k :: seen).Nodup := List.nodup_cons.mpr ⟨hk, hseen⟩
      rw [if_neg (fun h => hk (List.contains_iff_mem.mp h)), ih hcons, List.reverse_cons,
        List.append_assoc, List.singleton_append, List.map_cons]

theorem repeated?_eq_none_iff : repeated? members = none ↔ (members.map (·.1)).Nodup :=
  repeatedFrom_eq_none_iff List.nodup_nil

theorem repeatedFrom_eq_some {seen : List Text} (hseen : seen.Nodup)
    (h : repeatedFrom seen members = some k) :
    ∃ front back, members.map (·.1) = front ++ k :: back ∧ (seen.reverse ++ front).Nodup ∧
      k ∈ seen.reverse ++ front := by
  induction members generalizing seen with
  | nil => cases h
  | cons m members ih =>
    obtain ⟨k', v⟩ := m
    rw [repeatedFrom] at h
    by_cases hk : k' ∈ seen
    · rw [if_pos (List.contains_iff_mem.mpr hk)] at h
      cases h
      exact ⟨[], members.map (·.1), rfl, by simpa [List.nodup_reverse] using hseen, by simpa using hk⟩
    · rw [if_neg (fun h => hk (List.contains_iff_mem.mp h))] at h
      obtain ⟨front, back, hmap, hnodup, hmem⟩ := ih (List.nodup_cons.mpr ⟨hk, hseen⟩) h
      rw [List.reverse_cons, List.append_assoc, List.singleton_append] at hnodup hmem
      exact ⟨k' :: front, back, by rw [List.map_cons, hmap, List.cons_append], hnodup, hmem⟩

/-- An object has one first repeated key at most. -/
theorem FirstRepeat.unique {k' : Text} (h : FirstRepeat members k)
    (h' : FirstRepeat members k') : k = k' := by
  obtain ⟨front, back, hmap, hnodup, hk⟩ := h
  obtain ⟨front', back', hmap', hnodup', hk'⟩ := h'
  rw [hmap] at hmap'
  rcases List.append_eq_append_iff.mp hmap' with ⟨l, rfl, hl⟩ | ⟨l, rfl, hl⟩
  · cases l with
    | nil => exact (List.cons.inj hl).1
    | cons x l =>
      obtain ⟨rfl, -⟩ := List.cons.inj hl
      exact absurd rfl ((List.nodup_append.mp hnodup').2.2 k hk k List.mem_cons_self)
  · cases l with
    | nil => exact (List.cons.inj hl).1.symm
    | cons x l =>
      obtain ⟨rfl, -⟩ := List.cons.inj hl
      exact absurd rfl ((List.nodup_append.mp hnodup).2.2 k' hk' k' List.mem_cons_self)

theorem repeated?_eq_some_iff : repeated? members = some k ↔ FirstRepeat members k := by
  have hsome : ∀ {k}, repeated? members = some k → FirstRepeat members k :=
    repeatedFrom_eq_some List.nodup_nil
  constructor
  · exact hsome
  · intro h
    cases hr : repeated? members with
    | some k' => exact congrArg some ((hsome hr).unique h)
    | none =>
      obtain ⟨front, back, hmap, -, hk⟩ := h
      rw [repeated?_eq_none_iff, hmap] at hr
      exact absurd rfl ((List.nodup_append.mp hr).2.2 k hk k List.mem_cons_self)

/-! ## The run through a document -/

/-- What objects that close do to a run: the first one with a repeated key ends
it. -/
def closing (objects : List (List (Text × Value))) (next : Except Fault Value) :
    Except Fault Value :=
  match objects.findSome? repeated? with
  | some k => .error (.duplicateKey k)
  | none => next

theorem closing_append (as bs : List (List (Text × Value))) (next : Except Fault Value) :
    closing (as ++ bs) next = closing as (closing bs next) := by
  rw [closing, List.findSome?_append]
  cases h : as.findSome? repeated? with
  | none => rw [closing, h]; rfl
  | some k => rw [closing, h]; rfl

theorem closing_singleton (members : List (Text × Value)) (next : Except Fault Value) :
    closing [members] next =
      match repeated? members with
      | some k => .error (.duplicateKey k)
      | none => next := by
  rw [closing, List.findSome?_cons]
  cases repeated? members with
  | none => rfl
  | some k => rfl

variable {stack : List Frame} {ts rest : List (Nat × Token)}

/-- The first of some tokens with their places. -/
theorem exists_placed_cons {token : Token} {toks : List Token} (h : ts.map (·.2) = token :: toks) :
    ∃ position ts', ts = (position, token) :: ts' ∧ ts'.map (·.2) = toks := by
  obtain ⟨⟨position, _⟩, ts', rfl, rfl, hts⟩ := List.map_eq_cons_iff.mp h
  exact ⟨position, ts', rfl, hts⟩

/-- A token ends an object as its members say. -/
theorem run_closeObject {position : Nat} {v : Value} {key : Text} :
    (Parser.mk (.behind v) (.object members key :: stack)).run ((position, .closeObject) :: rest) =
      closing [((key, v) :: members).reverse]
        ((Parser.mk (.behind (.dict ((((key, v) :: members).reverse).map entry))) stack).run rest) := by
  rw [closing_singleton]
  cases h : repeated? ((key, v) :: members).reverse with
  | none =>
    have hobject : objectOf ((key, v) :: members).reverse =
        .ok (.dict ((((key, v) :: members).reverse).map entry)) := by
      rw [objectOf, h]
      rfl
    simp only [Parser.run, Parser.step, closeOrGoOn, hobject]
    rfl
  | some k =>
    have hobject : objectOf ((key, v) :: members).reverse = .error (.duplicateKey k) := by
      rw [objectOf, h]
    simp only [Parser.run, Parser.step, closeOrGoOn, hobject]
    rfl

/-- Where the first item is waited for, any item may stand. -/
theorem run_firstItem {d : Document} (h : ts.map (·.2) = d.tokens) :
    (Parser.mk .firstItem stack).run (ts ++ rest) =
      (Parser.mk .value (.array [] :: stack)).run (ts ++ rest) := by
  have hfirst : ∃ token toks, d.tokens = token :: toks ∧
      (token = .openArray ∨ token = .openObject ∨ (∃ s, token = .scalar s) ∨
        ∃ t, token = .text t) := by
    cases d with
    | scalar s => exact ⟨_, _, by rw [Document.tokens], .inr (.inr (.inl ⟨_, rfl⟩))⟩
    | text t => exact ⟨_, _, by rw [Document.tokens], .inr (.inr (.inr ⟨_, rfl⟩))⟩
    | array items => cases items <;> exact ⟨_, _, by rw [Document.tokens], .inl rfl⟩
    | object ms => cases ms <;> exact ⟨_, _, by rw [Document.tokens], .inr (.inl rfl)⟩
  obtain ⟨token, toks, hcons, hkind⟩ := hfirst
  rw [hcons] at h
  obtain ⟨position, ts', rfl, -⟩ := exists_placed_cons h
  rcases hkind with rfl | rfl | ⟨s, rfl⟩ | ⟨t, rfl⟩ <;> rfl

mutual

/-- A document takes the parser that waits for a value to one that has it. -/
theorem run_tokens : ∀ (d : Document) (stack : List Frame) (ts rest : List (Nat × Token)),
    ts.map (·.2) = d.tokens →
    (Parser.mk .value stack).run (ts ++ rest) =
      closing d.objects ((Parser.mk (.behind d.value) stack).run rest)
  | .scalar s, stack, ts, rest, h => by
    rw [Document.tokens] at h
    obtain ⟨position, ts₁, rfl, h₁⟩ := exists_placed_cons h
    obtain rfl := List.map_eq_nil_iff.mp h₁
    rfl
  | .text t, stack, ts, rest, h => by
    rw [Document.tokens] at h
    obtain ⟨position, ts₁, rfl, h₁⟩ := exists_placed_cons h
    obtain rfl := List.map_eq_nil_iff.mp h₁
    rfl
  | .array [], stack, ts, rest, h => by
    rw [Document.tokens] at h
    obtain ⟨position, ts₁, rfl, h₁⟩ := exists_placed_cons h
    obtain ⟨position', ts₂, rfl, h₂⟩ := exists_placed_cons h₁
    obtain rfl := List.map_eq_nil_iff.mp h₂
    rfl
  | .array (d :: ds), stack, ts, rest, h => by
    rw [Document.tokens] at h
    obtain ⟨position, ts₁, rfl, h₁⟩ := exists_placed_cons h
    obtain ⟨first, later, rfl, hfirst, hlater⟩ := List.map_eq_append_iff.mp h₁
    have hopen : (Parser.mk .value stack).run ((position, .openArray) :: (first ++ later) ++ rest) =
        (Parser.mk .firstItem stack).run (first ++ (later ++ rest)) := by
      rw [List.cons_append, List.append_assoc]
      rfl
    rw [hopen, run_firstItem hfirst, run_tokens d _ first _ hfirst,
      run_laterItems ds _ _ _ _ _ hlater, ← closing_append]
    rfl
  | .object [], stack, ts, rest, h => by
    rw [Document.tokens] at h
    obtain ⟨position, ts₁, rfl, h₁⟩ := exists_placed_cons h
    obtain ⟨position', ts₂, rfl, h₂⟩ := exists_placed_cons h₁
    obtain rfl := List.map_eq_nil_iff.mp h₂
    rfl
  | .object ((k, d) :: ms), stack, ts, rest, h => by
    rw [Document.tokens] at h
    obtain ⟨position, ts₁, rfl, h₁⟩ := exists_placed_cons h
    obtain ⟨position', ts₂, rfl, h₂⟩ := exists_placed_cons h₁
    obtain ⟨position'', ts₃, rfl, h₃⟩ := exists_placed_cons h₂
    obtain ⟨first, later, rfl, hfirst, hlater⟩ := List.map_eq_append_iff.mp h₃
    have hopen : (Parser.mk .value stack).run ((position, .openObject) ::
          (position', .text (.ok k)) :: (position'', .colon) :: (first ++ later) ++ rest) =
        (Parser.mk .value (.object [] k :: stack)).run (first ++ (later ++ rest)) := by
      rw [List.cons_append, List.cons_append, List.cons_append, List.append_assoc]
      rfl
    rw [hopen, run_tokens d _ first _ hfirst, run_laterMembers ms _ _ _ _ _ _ hlater,
      ← closing_append, ← List.append_assoc]
    rfl

/-- The items behind one take the parser to the end of the array. -/
theorem run_laterItems : ∀ (ds : List Document) (v : Value) (items : List Value)
    (stack : List Frame) (ts rest : List (Nat × Token)), ts.map (·.2) = laterItems ds →
    (Parser.mk (.behind v) (.array items :: stack)).run (ts ++ rest) =
      closing (objectsOfItems ds)
        ((Parser.mk (.behind (.list ((v :: items).reverse ++ values ds))) stack).run rest)
  | [], v, items, stack, ts, rest, h => by
    rw [laterItems] at h
    obtain ⟨position, ts₁, rfl, h₁⟩ := exists_placed_cons h
    obtain rfl := List.map_eq_nil_iff.mp h₁
    rw [values, List.append_nil]
    rfl
  | d :: ds, v, items, stack, ts, rest, h => by
    rw [laterItems] at h
    obtain ⟨position, ts₁, rfl, h₁⟩ := exists_placed_cons h
    obtain ⟨first, later, rfl, hfirst, hlater⟩ := List.map_eq_append_iff.mp h₁
    have hcomma : (Parser.mk (.behind v) (.array items :: stack)).run
          ((position, .comma) :: (first ++ later) ++ rest) =
        (Parser.mk .value (.array (v :: items) :: stack)).run (first ++ (later ++ rest)) := by
      rw [List.cons_append, List.append_assoc]
      rfl
    rw [hcomma, run_tokens d _ first _ hfirst, run_laterItems ds _ _ _ _ _ hlater, ← closing_append,
      List.reverse_cons, List.append_assoc, List.singleton_append]
    rfl

/-- The members behind one take the parser to the end of the object, which is
the last one to close. -/
theorem run_laterMembers : ∀ (ms : List (Text × Document)) (v : Value) (key : Text)
    (members : List (Text × Value)) (stack : List Frame) (ts rest : List (Nat × Token)),
    ts.map (·.2) = laterMembers ms →
    (Parser.mk (.behind v) (.object members key :: stack)).run (ts ++ rest) =
      closing (objectsOfMembers ms ++ [((key, v) :: members).reverse ++ pairs ms])
        ((Parser.mk (.behind (.dict ((((key, v) :: members).reverse ++ pairs ms).map entry)))
          stack).run rest)
  | [], v, key, members, stack, ts, rest, h => by
    rw [laterMembers] at h
    obtain ⟨position, ts₁, rfl, h₁⟩ := exists_placed_cons h
    obtain rfl := List.map_eq_nil_iff.mp h₁
    rw [objectsOfMembers, pairs, List.append_nil, List.nil_append]
    exact run_closeObject
  | (k, d) :: ms, v, key, members, stack, ts, rest, h => by
    rw [laterMembers] at h
    obtain ⟨position, ts₁, rfl, h₁⟩ := exists_placed_cons h
    obtain ⟨position', ts₂, rfl, h₂⟩ := exists_placed_cons h₁
    obtain ⟨position'', ts₃, rfl, h₃⟩ := exists_placed_cons h₂
    obtain ⟨first, later, rfl, hfirst, hlater⟩ := List.map_eq_append_iff.mp h₃
    have hcomma : (Parser.mk (.behind v) (.object members key :: stack)).run
          ((position, .comma) :: (position', .text (.ok k)) :: (position'', .colon) ::
            (first ++ later) ++ rest) =
        (Parser.mk .value (.object ((key, v) :: members) k :: stack)).run
          (first ++ (later ++ rest)) := by
      rw [List.cons_append, List.cons_append, List.cons_append, List.append_assoc]
      rfl
    rw [hcomma, run_tokens d _ first _ hfirst, run_laterMembers ms _ _ _ _ _ _ hlater,
      ← closing_append, List.reverse_cons, List.append_assoc, List.singleton_append,
      ← List.append_assoc]
    rfl

end

/-! ## Texts of documents -/

theorem separated_cons {token : Token} {toks : List Token} (h : token.isScalar = false)
    (hsep : Separated toks) : Separated (token :: toks) := by
  refine .cons (fun hs => ?_) hsep
  rw [h] at hs
  cases hs

mutual

/-- In a document every scalar stands where it ends. -/
theorem separated_tokens : ∀ (d : Document) (rest : List Token), Stops rest → Separated rest →
    Separated (d.tokens ++ rest)
  | .scalar s, rest, hstops, hsep => by
    rw [Document.tokens]
    exact .cons (fun _ => hstops) hsep
  | .text t, rest, _, hsep => by
    rw [Document.tokens]
    exact separated_cons rfl hsep
  | .array [], rest, _, hsep => by
    rw [Document.tokens]
    exact separated_cons rfl (separated_cons rfl hsep)
  | .array (d :: ds), rest, _, hsep => by
    obtain ⟨hlater, hstops⟩ := separated_laterItems ds rest hsep
    rw [Document.tokens, List.cons_append, List.append_assoc]
    exact separated_cons rfl (separated_tokens d _ hstops hlater)
  | .object [], rest, _, hsep => by
    rw [Document.tokens]
    exact separated_cons rfl (separated_cons rfl hsep)
  | .object ((k, d) :: ms), rest, _, hsep => by
    obtain ⟨hlater, hstops⟩ := separated_laterMembers ms rest hsep
    rw [Document.tokens, List.cons_append, List.cons_append, List.cons_append, List.append_assoc]
    refine separated_cons rfl (separated_cons rfl (separated_cons rfl ?_))
    exact separated_tokens d _ hstops hlater

theorem separated_laterItems : ∀ (ds : List Document) (rest : List Token), Separated rest →
    Separated (laterItems ds ++ rest) ∧ Stops (laterItems ds ++ rest)
  | [], rest, hsep => by
    rw [laterItems]
    exact ⟨separated_cons rfl hsep, by rintro token ⟨⟩; rfl⟩
  | d :: ds, rest, hsep => by
    obtain ⟨hlater, hstops⟩ := separated_laterItems ds rest hsep
    rw [laterItems, List.cons_append, List.append_assoc]
    exact ⟨separated_cons rfl (separated_tokens d _ hstops hlater), by rintro token ⟨⟩; rfl⟩

theorem separated_laterMembers : ∀ (ms : List (Text × Document)) (rest : List Token),
    Separated rest → Separated (laterMembers ms ++ rest) ∧ Stops (laterMembers ms ++ rest)
  | [], rest, hsep => by
    rw [laterMembers]
    exact ⟨separated_cons rfl hsep, by rintro token ⟨⟩; rfl⟩
  | (k, d) :: ms, rest, hsep => by
    obtain ⟨hlater, hstops⟩ := separated_laterMembers ms rest hsep
    rw [laterMembers, List.cons_append, List.cons_append, List.cons_append, List.append_assoc]
    refine ⟨separated_cons rfl (separated_cons rfl (separated_cons rfl ?_)), ?_⟩
    · exact separated_tokens d _ hstops hlater
    · rintro token ⟨⟩
      rfl

end

/-- **The value of a document, or why it has none.** -/
theorem parse_of_written {d : Document} {t : Text} (h : d.WrittenAs t) :
    parse t = closing d.objects (.ok d.value) := by
  have hsep : Separated d.tokens := by
    have hend := separated_tokens d [] (fun _ h => absurd h (by simp)) .nil
    rwa [List.append_nil] at hend
  obtain ⟨front, end', htokens, hfront, hend⟩ :=
    List.map_eq_append_iff.mp (map_tokens_of_written h hsep)
  obtain ⟨position, ts, rfl, hts⟩ := exists_placed_cons hend
  obtain rfl := List.map_eq_nil_iff.mp hts
  have hparse : parse t = (Parser.mk .value []).run (tokens t) := by
    rw [parse]
    exact h.ne_mark
  rw [hparse, htokens, run_tokens d [] front _ hfront]
  rfl

/-! ## Refusals -/

theorem findSome?_repeated?_eq_some_iff {d : Document} :
    d.objects.findSome? repeated? = some k ↔ d.RefusedFor k := by
  rw [List.findSome?_eq_some_iff]
  simp only [repeated?_eq_none_iff, repeated?_eq_some_iff]
  constructor
  · rintro ⟨before, members, after, hobjects, hmembers, hbefore⟩
    exact ⟨before, members, after, hobjects, hbefore, hmembers⟩
  · rintro ⟨before, members, after, hobjects, hbefore, hmembers⟩
    exact ⟨before, members, after, hobjects, hmembers, hbefore⟩

theorem findSome?_repeated?_eq_none_iff {d : Document} :
    d.objects.findSome? repeated? = none ↔ d.KeysOnce := by
  rw [List.findSome?_eq_none_iff, keysOnce_iff]
  simp only [repeated?_eq_none_iff]

end TextGrammar.Json
