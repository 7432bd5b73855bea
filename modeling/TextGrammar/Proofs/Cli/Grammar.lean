/-
# `TextGrammar.Proofs.Cli.Grammar` — the grammar at a path

What the commands take from the file at a path is a grammar, or a rejection;
`Rejects` lists where a rejection comes from.  Of a YAML file that is a mapping
the grammar has every pair, unless a fraction among the keys hides that an
integer was there before:

    grammarAt_keeps_iff       when a grammar has all pairs of its file
    grammarAt_loses           a file of two pairs and one symbol
-/
import TextGrammar.Cli.Command
import TextGrammar.Proofs.Grammar.File
import TextGrammar.Proofs.Yaml.Node

namespace TextGrammar.Cli

variable {tree : FileTree} {path : Text}

/-! ## Grammars and rejections -/

theorem load_of_grammarAt {g : Grammar} (h : (grammarAt tree path).2 = .ok g) :
    ∃ raw, GrammarFile.load tree (Path.ofText path) = .ok raw ∧
      Validation.validate raw (some path) = .ok g := by
  rw [grammarAt] at h
  cases hload : GrammarFile.load tree (Path.ofText path) with
  | error f =>
    rw [hload] at h
    cases h
  | ok raw =>
    refine ⟨raw, rfl, ?_⟩
    cases hvalid : Validation.validate raw (some path) with
    | error ds =>
      simp only [hload, hvalid] at h
      cases h
    | ok g' =>
      simp only [hload, hvalid] at h
      cases h
      rfl

/-- Where the rejection of a file comes from. -/
inductive Rejects (path : Text) : Rejection → Prop
  | crash {f : GrammarFile.Fault} (h : f.escapes = true) : Rejects path (.crash f)
  | load {f : GrammarFile.Fault} (h : f.escapes = false) :
      Rejects path (.load (f.diagnostic (Path.ofText path)))
  | invalid {raw : List (Value × Value)} {ds : List Diagnostic}
      (h : Validation.validate raw (some path) = .error ds) : Rejects path (.invalid ds)

theorem rejects_of_grammarAt {r : Rejection} (h : (grammarAt tree path).2 = .error r) :
    Rejects path r := by
  rw [grammarAt] at h
  cases hload : GrammarFile.load tree (Path.ofText path) with
  | error f =>
    rw [hload] at h
    cases hf : f.escapes with
    | true =>
      simp only [hf] at h
      cases h
      exact .crash hf
    | false =>
      simp only [hf] at h
      cases h
      exact .load hf
  | ok raw =>
    cases hvalid : Validation.validate raw (some path) with
    | error ds =>
      simp only [hload, hvalid] at h
      cases h
      exact .invalid hvalid
    | ok g =>
      simp only [hload, hvalid] at h
      cases h

/-! ## What a grammar has of its file -/

open GrammarFile

/-- **A grammar has every pair of its YAML file, if none is lost to a
fraction.**  Where there is no grammar something is reported, or the loader
itself fails. -/
theorem grammarAt_keeps_iff {t : Text} {line : Nat} {tag : Yaml.Tag}
    {pairs : List (Yaml.Node × Yaml.Node)}
    (hformat : Format.ofPath? (Path.ofText path) = some .yaml)
    (ht : tree.readText (Path.ofText path) = .ok t)
    (hnode : Yaml.node? t = .ok (some (.mapping line tag pairs))) :
    match (grammarAt tree path).2 with
    | .ok g => Keeps g (Yaml.Node.entries pairs) ↔ NoneReplaced pairs
    | .error r => r.diagnostics ≠ [] ∨ ∃ f, r = .crash f ∧ f.escapes = true := by
  cases hg : (grammarAt tree path).2 with
  | ok g =>
    obtain ⟨raw, hload, hvalid⟩ := load_of_grammarAt hg
    obtain ⟨es, hread, hnames⟩ := read_of_load hformat ht hnode hload
    exact keeps_iff hread hnames hvalid
  | error r =>
    cases rejects_of_grammarAt hg with
    | crash hf => exact .inr ⟨_, rfl, hf⟩
    | load _ => exact .inl (List.cons_ne_nil _ _)
    | invalid hvalid => exact .inl (Validation.ne_nil_of_validate hvalid)

/-! ## Two files -/

/-- The tree of one grammar file, in ASCII. -/
def oneFile (t : Text) : FileTree :=
  .ofEntries [("g.yaml".toList, .file (t.map fun c => UInt8.ofNat c.toNat))]

/-- A file of two pairs. -/
def losing : Text := "1: a\n1.0: b\n".toList

/-- The pairs of `losing`. -/
def losingPairs : List (Yaml.Node × Yaml.Node) := [
  (.scalar 0 .int "1".toList, .scalar 0 .str "a".toList),
  (.scalar 1 .float "1.0".toList, .scalar 1 .str "b".toList)]

/-- The first pair is gone and nothing is reported. -/
theorem grammarAt_loses :
    Format.ofPath? (Path.ofText "g.yaml".toList) = some .yaml ∧
      (oneFile losing).readText (Path.ofText "g.yaml".toList) = .ok losing ∧
      Yaml.node? losing = .ok (some (.mapping 0 .map losingPairs)) ∧
      (grammarAt (oneFile losing) "g.yaml".toList).2 = .ok [("1".toList, ["b".toList])] ∧
      ¬ Keeps [("1".toList, ["b".toList])] (Yaml.Node.entries losingPairs) := by
  have hg : (grammarAt (oneFile losing) "g.yaml".toList).2.toOption =
      some [("1".toList, ["b".toList])] := by decide +kernel
  refine ⟨by decide +kernel, Yaml.eq_ok_of_toOption (by decide +kernel),
    Yaml.eq_ok_of_toOption (by decide +kernel), Yaml.eq_ok_of_toOption hg, ?_⟩
  intro h
  exact absurd h.length (by decide)

/-- A file whose keys are a text and integers, one of them in quotes. -/
def keeping : Text := "animal: [owl, cat]\n1: one\n0x2: two\n'3': []\n".toList

/-- The pairs of `keeping`. -/
def keepingPairs : List (Yaml.Node × Yaml.Node) := [
  (.scalar 0 .str "animal".toList,
    .sequence 0 .seq [.scalar 0 .str "owl".toList, .scalar 0 .str "cat".toList]),
  (.scalar 1 .int "1".toList, .scalar 1 .str "one".toList),
  (.scalar 2 .int "0x2".toList, .scalar 2 .str "two".toList),
  (.scalar 3 .str "3".toList, .sequence 3 .seq [])]

theorem grammarAt_keeps :
    Format.ofPath? (Path.ofText "g.yaml".toList) = some .yaml ∧
      (oneFile keeping).readText (Path.ofText "g.yaml".toList) = .ok keeping ∧
      Yaml.node? keeping = .ok (some (.mapping 0 .map keepingPairs)) ∧
      ∃ g, (grammarAt (oneFile keeping) "g.yaml".toList).2 = .ok g ∧
        Keeps g (Yaml.Node.entries keepingPairs) := by
  have hformat : Format.ofPath? (Path.ofText "g.yaml".toList) = some .yaml := by decide +kernel
  have ht : (oneFile keeping).readText (Path.ofText "g.yaml".toList) = .ok keeping :=
    Yaml.eq_ok_of_toOption (by decide +kernel)
  have hnode : Yaml.node? keeping = .ok (some (.mapping 0 .map keepingPairs)) :=
    Yaml.eq_ok_of_toOption (by decide +kernel)
  refine ⟨hformat, ht, hnode, ?_⟩
  have hvalid : (grammarAt (oneFile keeping) "g.yaml".toList).2.toOption.isSome = true := by
    decide +kernel
  have hkeeps := grammarAt_keeps_iff hformat ht hnode
  cases hg : (grammarAt (oneFile keeping) "g.yaml".toList).2 with
  | error r =>
    rw [hg] at hvalid
    cases hvalid
  | ok g =>
    rw [hg] at hkeeps
    have hnone : NoneReplaced keepingPairs := by
      unfold NoneReplaced
      decide +kernel
    exact ⟨g, rfl, hkeeps.mpr hnone⟩

end TextGrammar.Cli
