/-
# `TextGrammar.Proofs.Grammar.JsonFile` — which JSON files are grammars

A JSON file keeps every pair: the keys of an object are texts, and a repeated
one is refused where the object closes.  So nothing is left to do for the check
of the names of symbols, which comes later, and nothing is told of a document
that is no object as long as a key is repeated within it.

    load_of_writtenAs    a file is refused for the first repeated key of the
                         first object that has one, else if it holds no object,
                         and else its pairs are returned as they are written

The file is any text that writes the document, with any white space, escapes
and figures.
-/
import TextGrammar.Grammar.File
import TextGrammar.Proofs.Assoc.Distinct
import TextGrammar.Proofs.Json.Document
import TextGrammar.Proofs.Yaml.Node

namespace TextGrammar.GrammarFile

open Json (Document)

variable {tree : FileTree} {p : Path} {t : Text} {d : Document}

/-! ## Names -/

/-- Texts that differ are taken as names one after the other. -/
theorem nameEntries_entries {before members : List (Text × Value)}
    (h : ((before ++ members).map (·.1)).Nodup) :
    nameEntries (before.map Document.entry) (members.map Document.entry) =
      .ok ((before ++ members).map Document.entry) := by
  induction members generalizing before with
  | nil => rw [List.append_nil, List.map_nil, nameEntries]
  | cons m members ih =>
    have hnew : Assoc.contains (before.map Document.entry) (.str m.1) = false := by
      rw [Assoc.contains_eq_false_iff]
      intro e he
      obtain ⟨b, hb, rfl⟩ := List.mem_map.mp he
      rw [List.map_append, List.map_cons] at h
      have hne : b.1 ≠ m.1 :=
        (List.nodup_append.mp h).2.2 b.1 (List.mem_map.mpr ⟨b, hb, rfl⟩) m.1 List.mem_cons_self
      show (m.1 == b.1) = false
      exact beq_eq_false_iff_ne.mpr hne.symm
    rw [List.append_cons] at h ⊢
    have hlater := ih h
    rw [List.map_append, List.map_singleton] at hlater
    rw [List.map_cons, Document.entry, nameEntries]
    simp only [symbolKey, hnew, Bool.false_eq_true, ↓reduceIte]
    exact hlater

/-! ## Files -/

theorem contains_of_readText (h : tree.readText p = .ok t) : tree.contains p = true := by
  rw [FileTree.readText] at h
  rw [FileTree.contains]
  cases hfind : tree.find p with
  | error f =>
    rw [hfind] at h
    cases h
  | ok e => rfl

/-- A file that writes a document is loaded as the objects that close say. -/
theorem load_eq_of_writtenAs (hformat : Format.ofPath? p = some .json)
    (ht : tree.readText p = .ok t) (hd : d.WrittenAs t) :
    load tree p =
      match d.objects.findSome? Json.repeated? with
      | some k => .error (.parse .json (.json t (.duplicateKey k)))
      | none => entriesOf d.value := by
  rw [load, contains_of_readText ht]
  simp only [Bool.not_true, Bool.false_eq_true, ↓reduceIte, hformat, ht, parse,
    Json.parse_of_written hd, Json.closing]
  cases d.objects.findSome? Json.repeated? with
  | none => rfl
  | some k => rfl

/-- The entries of an object without repeated keys are its pairs. -/
theorem entriesOf_object {members : List (Text × Document)}
    (h : (Document.object members).KeysOnce) :
    entriesOf (Document.object members).value =
      .ok (members.map fun m => (.str m.1, m.2.value)) := by
  have hnodup : ((Document.pairs members).map (·.1)).Nodup := by
    rw [Document.keys_pairs]
    exact h members .self
  have hnames : nameEntries [] ((Document.pairs members).map Document.entry) =
      .ok ((Document.pairs members).map Document.entry) :=
    @nameEntries_entries [] _ hnodup
  rw [Document.value, entriesOf, hnames, Document.pairs_eq_map, List.map_map]
  rfl

theorem entriesOf_of_ne_object (h : ∀ members, d ≠ .object members) :
    entriesOf d.value = .error .notMapping := by
  cases d with
  | scalar s => cases s <;> rfl
  | text t => rfl
  | array items => rfl
  | object members => exact absurd rfl (h members)

/-- What comes of a file that writes a document. -/
inductive Outcome (t : Text) (d : Document) : Except Fault (List (Value × Value)) → Prop
  | refused {k : Text} (hkeys : ¬ d.KeysOnce) (hk : d.RefusedFor k) :
      Outcome t d (.error (.parse .json (.json t (.duplicateKey k))))
  | notMapping (hkeys : d.KeysOnce) (hd : ∀ members, d ≠ .object members) :
      Outcome t d (.error .notMapping)
  | loaded {members : List (Text × Document)} (hkeys : d.KeysOnce) (hd : d = .object members) :
      Outcome t d (.ok (members.map fun m => (.str m.1, m.2.value)))

theorem outcome_load (hformat : Format.ofPath? p = some .json)
    (ht : tree.readText p = .ok t) (hd : d.WrittenAs t) : Outcome t d (load tree p) := by
  rw [load_eq_of_writtenAs hformat ht hd]
  cases hrepeated : d.objects.findSome? Json.repeated? with
  | some k =>
    refine .refused ?_ (Json.findSome?_repeated?_eq_some_iff.mp hrepeated)
    intro hkeys
    rw [Json.findSome?_repeated?_eq_none_iff.mpr hkeys] at hrepeated
    cases hrepeated
  | none =>
    have hkeys := Json.findSome?_repeated?_eq_none_iff.mp hrepeated
    by_cases hobject : ∃ members, d = .object members
    · obtain ⟨members, rfl⟩ := hobject
      rw [entriesOf_object hkeys]
      exact .loaded hkeys rfl
    · have hne : ∀ members, d ≠ .object members := not_exists.mp hobject
      rw [entriesOf_of_ne_object hne]
      exact .notMapping hkeys hne

/-- Loading a file fails with a diagnostic that has a code. -/
def Raises (tree : FileTree) (p : Path) (code : Text) : Prop :=
  ∃ f, load tree p = .error f ∧ f.escapes = false ∧ f.code = code

/-- The diagnostic for a symbol of a file that is defined twice. -/
def twice (p : Path) (k : Text) : Diagnostic :=
  ⟨.load, "E_DUPLICATE_SYMBOL".toList, "symbol defined more than once: ".toList ++ k,
    some p.toText, some k, none⟩

/-- **A JSON file is loaded if and only if it holds an object and no object in
it repeats a key.**  A repeated key is told before anything else. -/
theorem load_of_writtenAs (hformat : Format.ofPath? p = some .json)
    (ht : tree.readText p = .ok t) (hd : d.WrittenAs t) :
    (Raises tree p "E_DUPLICATE_SYMBOL".toList ↔ ¬ d.KeysOnce) ∧
    (∀ f, load tree p = .error f → f.code = "E_DUPLICATE_SYMBOL".toList →
      ∃ k, d.RefusedFor k ∧ f.diagnostic p = twice p k) ∧
    (Raises tree p "E_INVALID_TOP_LEVEL".toList ↔
      d.KeysOnce ∧ ∀ members, d ≠ .object members) ∧
    ∀ raw, load tree p = .ok raw ↔
      d.KeysOnce ∧ ∃ members, d = .object members ∧
        raw = members.map fun m => (.str m.1, m.2.value) := by
  have hcodes : "E_DUPLICATE_SYMBOL".toList ≠ "E_INVALID_TOP_LEVEL".toList := by decide
  have houtcome := outcome_load hformat ht hd
  unfold Raises
  generalize load tree p = result at houtcome ⊢
  cases houtcome with
  | @refused k hkeys hk =>
    refine ⟨?_, ?_, ?_, ?_⟩
    · exact ⟨fun _ => hkeys, fun _ => ⟨_, rfl, rfl, rfl⟩⟩
    · rintro f ⟨⟩ -
      exact ⟨k, hk, rfl⟩
    · constructor
      · rintro ⟨f, ⟨⟩, -, hcode⟩
        exact absurd hcode hcodes
      · rintro ⟨honce, -⟩
        exact absurd honce hkeys
    · intro raw
      constructor
      · rintro ⟨⟩
      · rintro ⟨honce, -⟩
        exact absurd honce hkeys
  | notMapping hkeys hne =>
    refine ⟨?_, ?_, ?_, ?_⟩
    · constructor
      · rintro ⟨f, ⟨⟩, -, hcode⟩
        exact absurd hcode hcodes.symm
      · exact fun hnot => absurd hkeys hnot
    · rintro f ⟨⟩ hcode
      exact absurd hcode hcodes.symm
    · exact ⟨fun _ => ⟨hkeys, hne⟩, fun _ => ⟨_, rfl, rfl, rfl⟩⟩
    · intro raw
      constructor
      · rintro ⟨⟩
      · rintro ⟨-, members, rfl, -⟩
        exact absurd rfl (hne members)
  | @loaded members hkeys hobject =>
    subst hobject
    refine ⟨?_, ?_, ?_, ?_⟩
    · constructor
      · rintro ⟨f, ⟨⟩, -⟩
      · exact fun hnot => absurd hkeys hnot
    · rintro f ⟨⟩
    · constructor
      · rintro ⟨f, ⟨⟩, -⟩
      · rintro ⟨-, hne⟩
        exact absurd rfl (hne members)
    · intro raw
      constructor
      · rintro ⟨⟩
        exact ⟨hkeys, members, rfl, rfl⟩
      · rintro ⟨-, members', ⟨⟩, rfl⟩
        rfl

/-! ## A file -/

/-- The tree of one JSON file, in ASCII. -/
def jsonFile (t : Text) : FileTree :=
  .ofEntries [("g.json".toList, .file (t.map fun c => UInt8.ofNat c.toNat))]

/-- An array of an object that repeats a key behind an object that repeats
another one. -/
def nested : Text := "[\x7b\"a\": \x7b\"b\":null,\"b\":\"x\"\x7d,\"a\":\"y\"\x7d]".toList

/-- The document of `nested`. -/
def nestedDocument : Document :=
  .array [.object [
    (['a'], .object [(['b'], .scalar .null), (['b'], .text ['x'])]),
    (['a'], .text ['y'])]]

theorem writtenAs_nested : nestedDocument.WrittenAs nested := by
  have gap : Json.Gap [] := List.forall_mem_nil _
  have blank : Json.Gap [' '] := List.forall_mem_singleton.mpr rfl
  have letter : ∀ c : Char, c ≠ '"' → c ≠ '\\' → 0x20 ≤ c.toNat →
      Json.Lexeme (.text (.ok [c])) ['"', c, '"'] :=
    fun c hquote hslash hspace => .text (.plain hquote hslash hspace .nil)
  have a := letter 'a' (by decide) (by decide) (by decide)
  have b := letter 'b' (by decide) (by decide) (by decide)
  have x := letter 'x' (by decide) (by decide) (by decide)
  have y := letter 'y' (by decide) (by decide) (by decide)
  have null : Json.Lexeme (.scalar (.ok Json.Scalar.null.value)) "null".toList :=
    .word List.mem_cons_self
  have hwritten : Json.Written nestedDocument.tokens _ :=
    .cons gap .openArray <| .cons gap .openObject <| .cons gap a <| .cons gap .colon <|
    .cons blank .openObject <| .cons gap b <| .cons gap .colon <| .cons gap null <|
    .cons gap .comma <| .cons gap b <| .cons gap .colon <| .cons gap x <|
    .cons gap .closeObject <| .cons gap .comma <| .cons gap a <| .cons gap .colon <|
    .cons gap y <| .cons gap .closeObject <| .cons gap .closeArray <| .nil gap
  exact hwritten

/-- The object within closes first, so that its key is told and neither the other
one nor that the whole is an array. -/
theorem load_nested :
    Format.ofPath? (Path.ofText "g.json".toList) = some .json ∧
      (jsonFile nested).readText (Path.ofText "g.json".toList) = .ok nested ∧
      nestedDocument.WrittenAs nested ∧
      ∃ f, load (jsonFile nested) (Path.ofText "g.json".toList) = .error f ∧
        f.diagnostic (Path.ofText "g.json".toList) = twice (Path.ofText "g.json".toList) ['b'] := by
  have hformat : Format.ofPath? (Path.ofText "g.json".toList) = some .json := by decide +kernel
  have ht : (jsonFile nested).readText (Path.ofText "g.json".toList) = .ok nested :=
    Yaml.eq_ok_of_toOption (by decide +kernel)
  refine ⟨hformat, ht, writtenAs_nested, ?_⟩
  obtain ⟨hraises, htold, -, -⟩ := load_of_writtenAs hformat ht writtenAs_nested
  have hfirst : nestedDocument.objects.findSome? Json.repeated? = some ['b'] := rfl
  have hkeys : ¬ nestedDocument.KeysOnce := by
    intro h
    rw [← Json.findSome?_repeated?_eq_none_iff, hfirst] at h
    cases h
  obtain ⟨f, hf, -, hcode⟩ := hraises.mpr hkeys
  obtain ⟨k, hk, hdiagnostic⟩ := htold f hf hcode
  rw [← Json.findSome?_repeated?_eq_some_iff, hfirst] at hk
  cases hk
  exact ⟨f, hf, hdiagnostic⟩

end TextGrammar.GrammarFile
