/-
# `TextGrammar.Grammar.Validation` — grammars from plain data

A mapping is a grammar when its keys are texts that are not blank and its
values are lists of texts; a single text counts as a list of one.
`validate` gives the grammar, or all defects of the mapping in order.
-/
import TextGrammar.Grammar.Basic
import TextGrammar.Grammar.Diagnostic
import TextGrammar.Text.Basic
import TextGrammar.Value.Written

namespace TextGrammar.Validation

/-! ## Defects -/

/-- What can be wrong with an entry: its key, its value as a whole, or an
item of it. -/
inductive Defect where
  | key (k : Value)
  | candidates (symbol : Text) (v : Value)
  | candidate (symbol : Text) (index : Nat) (v : Value)

/-- The code of a defect. -/
def Defect.code : Defect → Text
  | .key _ => "E_INVALID_KEY".toList
  | .candidates _ _ => "E_INVALID_TYPE".toList
  | .candidate _ _ _ => "E_INVALID_TYPE".toList

/-- The message for a defect. -/
def Defect.message : Defect → Text
  | .key k => "symbol names must be non-empty strings, got ".toList ++ k.written
  | .candidates _ v => "candidates must be an array of strings, got ".toList ++ v.kindName
  | .candidate _ _ v => "candidate must be a string, got ".toList ++ v.kindName

/-- The symbol a defect belongs to. -/
def Defect.symbol : Defect → Text
  | .key k => k.shown
  | .candidates s _ => s
  | .candidate s _ _ => s

/-- The candidate a defect belongs to. -/
def Defect.index : Defect → Option Int
  | .candidate _ i _ => some i
  | _ => none

/-- A defect as a diagnostic for a file. -/
def Defect.diagnostic (file : Option Text) (d : Defect) : Diagnostic :=
  ⟨.validation, d.code, d.message, file, some d.symbol, d.index⟩

/-! ## Entries -/

/-- A key as the name of a symbol. -/
def symbol? : Value → Option Text
  | .str t => if Text.allBlank t then none else some t
  | _ => none

/-- The defects of the items of a list, counted from a number on. -/
def itemDefects (symbol : Text) : Nat → List Value → List Defect
  | _, [] => []
  | i, .str _ :: rest => itemDefects symbol (i + 1) rest
  | i, v :: rest => .candidate symbol i v :: itemDefects symbol (i + 1) rest

/-- The defects of an entry.  The value of a bad key is not looked at. -/
def entryDefects (entry : Value × Value) : List Defect :=
  match symbol? entry.1 with
  | none => [.key entry.1]
  | some symbol =>
    match entry.2 with
    | .str _ => []
    | .list items => itemDefects symbol 0 items
    | v => [.candidates symbol v]

/-- The candidates that a value without defect gives. -/
def candidatesOf : Value → List Text
  | .str t => [t]
  | .list items => items.filterMap Value.text?
  | _ => []

/-- The symbol and its candidates that an entry without defect gives. -/
def symbolOf (entry : Value × Value) : Option (Text × List Text) :=
  (symbol? entry.1).map fun symbol => (symbol, candidatesOf entry.2)

/-! ## Mappings -/

/-- All defects of a mapping. -/
def defects (raw : List (Value × Value)) : List Defect := raw.flatMap entryDefects

/-- The grammar of a mapping, or its defects as diagnostics in order. -/
def validate (raw : List (Value × Value)) (file : Option Text) :
    Except (List Diagnostic) Grammar :=
  match defects raw with
  | [] => .ok (raw.filterMap symbolOf)
  | ds => .error (Diagnostic.sort (ds.map (·.diagnostic file)))

end TextGrammar.Validation
