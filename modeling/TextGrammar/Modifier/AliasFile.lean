/-
# `TextGrammar.Modifier.AliasFile` — aliases in files

A file of aliases is a YAML mapping of names to lists of modifiers.  An
alias may use the English modifiers and the aliases above it.  White
space around a name does not count.
-/
import TextGrammar.File.Tree
import TextGrammar.Modifier.Registry
import TextGrammar.Yaml.Content

namespace TextGrammar.AliasFile

/-! ## Faults -/

/-- Why a value lists no aliases. -/
inductive Defect where
  | notMapping
  | name
  | noList (key : Text)
  | item (key : Text)
  | unknown (key name : Text)
deriving DecidableEq, Repr

/-- The message for a defect. -/
def Defect.message : Defect → Text
  | .notMapping => "modifier file must be a mapping of alias -> list[str]".toList
  | .name => "modifier aliases must be non-empty strings".toList
  | .noList a => "alias '".toList ++ a ++ "' must be a non-empty list".toList
  | .item a => "alias '".toList ++ a ++ "' items must be non-empty strings".toList
  | .unknown a n => "alias '".toList ++ a ++ "' references unknown modifier: ".toList ++ n

/-- Why a file gives no aliases, or no registry. -/
inductive Fault where
  | read (f : ReadFault)
  | yaml (f : Yaml.Fault)
  | defect (d : Defect)
  | undefinedName (name : Text)

/-- The message for a fault of the file at a path; a text that is no YAML
document has none.  A name that is not defined is put between quotes. -/
def Fault.message? (p : Path) : Fault → Option Text
  | .read f => some (f.message p)
  | .yaml f => f.message?
  | .defect d => some d.message
  | .undefinedName name => some (Text.quoted name)

/-! ## Aliases -/

/-- The name that a value is, with white space around it stripped. -/
def name? (v : Value) : Option Text :=
  match v with
  | .str t => if Text.allBlank t then none else some (Text.strip t)
  | _ => none

/-- The names in the list of an alias, each of which has to be known. -/
def itemNames (key : Text) (known : List Text) : List Value → Except Defect (List Text)
  | [] => .ok []
  | v :: rest =>
    match name? v with
    | none => .error (.item key)
    | some n =>
      if known.contains n then (itemNames key known rest).map (n :: ·)
      else .error (.unknown key n)

/-- The alias that an entry defines. -/
def aliasOf (known : List Text) : Value × Value → Except Defect (Text × List Text)
  | (.str t, v) =>
    if Text.allBlank t then .error .name
    else match v with
      | .list (item :: items) =>
        (itemNames t known (item :: items)).map fun names => (Text.strip t, names)
      | _ => .error (.noList t)
  | _ => .error .name

/-- The aliases of entries, behind those that were read already, when
these names are known. -/
def readFrom (known : List Text) (before : Assoc Text (List Text)) :
    List (Value × Value) → Except Defect (Assoc Text (List Text))
  | [] => .ok before
  | entry :: rest =>
    match aliasOf known entry with
    | .error d => .error d
    | .ok (key, names) => readFrom (key :: known) (before.insert key names) rest

/-- The aliases that a value lists.  Nothing lists none. -/
def ofValue : Value → Except Defect (Assoc Text (List Text))
  | .null => .ok []
  | .dict entries => readFrom Registry.english.keys [] entries
  | _ => .error .notMapping

/-! ## Files -/

/-- The aliases in the file at a path. -/
def load (tree : FileTree) (p : Path) : Except Fault (Assoc Text (List Text)) :=
  match tree.readText p with
  | .error f => .error (.read f)
  | .ok t =>
    match Yaml.parse .loose t with
    | .error f => .error (.yaml f)
    | .ok v => (ofValue v).mapError .defect

/-- The English modifiers with the aliases in the file at a path. -/
def registry (tree : FileTree) (p : Path) : Except Fault Registry := do
  (Registry.withAliases (← load tree p)).mapError .undefinedName

end TextGrammar.AliasFile
