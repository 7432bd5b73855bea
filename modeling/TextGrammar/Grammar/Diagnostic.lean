/-
# `TextGrammar.Grammar.Diagnostic` — what is wrong with a grammar

A diagnostic has a code, a message and a place: a file, a symbol in it
and one of its candidates.  Any part of the place can be missing.
Diagnostics are listed by their place and then by their code; those that
agree in all of it keep the order in which they were found.
-/
import TextGrammar.Text.Basic

namespace TextGrammar

/-- What a diagnostic is about: a file that cannot be loaded, a grammar
that is not valid, or neither. -/
inductive DiagnosticKind where
  | plain
  | load
  | validation
deriving DecidableEq, Repr

/-- A message about a place in a grammar. -/
structure Diagnostic where
  kind : DiagnosticKind
  code : Text
  message : Text
  file : Option Text
  symbol : Option Text
  index : Option Int
deriving DecidableEq, Repr

namespace Diagnostic

/-! ## Text -/

/-- The symbol, with the number of the candidate if there is one. -/
def location (d : Diagnostic) : Option Text :=
  d.symbol.map fun s =>
    match d.index with
    | none => s
    | some i => s ++ '[' :: Text.ofInt i ++ [']']

/-- The place in words; a missing or empty file is the grammar as such. -/
def place (d : Diagnostic) : Text :=
  let file := match d.file with
    | none => "<grammar>".toList
    | some [] => "<grammar>".toList
    | some f => f
  match d.location with
  | none => file
  | some [] => file
  | some l => file ++ " (".toList ++ l ++ [')']

/-- The line for a diagnostic. -/
def line (d : Diagnostic) : Text :=
  d.place ++ ": ".toList ++ d.code ++ ": ".toList ++ d.message

/-! ## Order -/

/-- What the order looks at: missing texts count as empty and a missing
number as `-1`. -/
structure Key where
  file : Text
  symbol : Text
  index : Int
  code : Text
deriving DecidableEq, Repr

/-- The key of a diagnostic. -/
def key (d : Diagnostic) : Key := ⟨d.file.getD [], d.symbol.getD [], d.index.getD (-1), d.code⟩

/-- Whether a key comes before another one or equals it. -/
def Key.le (a b : Key) : Bool :=
  if a.file ≠ b.file then Text.le a.file b.file
  else if a.symbol ≠ b.symbol then Text.le a.symbol b.symbol
  else if a.index ≠ b.index then a.index ≤ b.index
  else Text.le a.code b.code

/-- The diagnostics in order. -/
def sort (ds : List Diagnostic) : List Diagnostic := ds.mergeSort fun a b => a.key.le b.key

end Diagnostic

end TextGrammar
