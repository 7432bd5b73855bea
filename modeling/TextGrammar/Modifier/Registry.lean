/-
# `TextGrammar.Modifier.Registry` — modifiers by name

A registry gives modifiers names.  Names without a modifier change
nothing when they are applied.  An alias is a name for several modifiers
one after the other; it means what those names meant when it was defined.
-/
import TextGrammar.Assoc
import TextGrammar.Modifier.English

namespace TextGrammar

/-- A function on texts. -/
abbrev Modifier := Text → Text

/-- Modifiers by name. -/
abbrev Registry := Assoc Text Modifier

namespace Registry

/-- The English modifiers. -/
def english : Registry := [
  ("capitalizeAll".toList, English.capitalizeAll), ("capitalize".toList, English.capitalize),
  ("lowercase".toList, English.lowercase), ("a".toList, English.article),
  ("s".toList, English.plural), ("firstS".toList, English.pluralFirst),
  ("ed".toList, English.past)]

/-- Applies one modifier by its name. -/
def applyName (r : Registry) (t name : Text) : Text :=
  match r.get? name with
  | some f => f t
  | none => t

/-- Applies the modifiers of the names from left to right. -/
def apply (r : Registry) (t : Text) (names : List Text) : Text := names.foldl r.applyName t

/-- All names in order. -/
def names (r : Registry) : List Text := Text.sort r.keys

/-! ## Aliases -/

/-- One modifier after the other. -/
def compose (fs : List Modifier) : Modifier := fun t => fs.foldl (fun t f => f t) t

/-- The modifiers of the names; the first name without one is the
fault. -/
def resolve (r : Registry) : List Text → Except Text (List Modifier)
  | [] => .ok []
  | name :: rest =>
    match r.get? name with
    | none => .error name
    | some f => (resolve r rest).map (f :: ·)

/-- Defines one alias after the other on top of a registry. -/
def define (r : Registry) : Assoc Text (List Text) → Except Text Registry
  | [] => .ok r
  | (key, names) :: rest =>
    match r.resolve names with
    | .error name => .error name
    | .ok fs => define (r.insert key (compose fs)) rest

/-- The English modifiers and aliases; the fault is a name that nothing
defines before its alias. -/
def withAliases (aliases : Assoc Text (List Text)) : Except Text Registry :=
  english.define aliases

end Registry

end TextGrammar
