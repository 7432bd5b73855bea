/-
# `TextGrammar.Grammar.File` — grammars in files

A grammar file is YAML or JSON, told by the end of its name.  Loading
gives the entries of its mapping as they are, except that whole numbers
as keys become texts; whether it is a grammar is left to validation.  A
symbol that is defined twice is refused.
-/
import TextGrammar.File.Tree
import TextGrammar.Grammar.Diagnostic
import TextGrammar.Json.Parser
import TextGrammar.Text.Case
import TextGrammar.Value.Written
import TextGrammar.Yaml.Content

namespace TextGrammar.GrammarFile

/-! ## Formats -/

/-- The formats of grammar files. -/
inductive Format where
  | json
  | yaml
deriving DecidableEq, Repr

/-- The format of a file by the end of its name, in any case. -/
def Format.ofPath? (p : Path) : Option Format :=
  let suffix := Text.lower p.suffix
  if suffix = ".json".toList then some .json
  else if suffix = ".yaml".toList ∨ suffix = ".yml".toList then some .yaml
  else none

/-- The code for a text that is not in a format. -/
def Format.code : Format → Text
  | .json => "E_JSON_PARSE".toList
  | .yaml => "E_YAML_PARSE".toList

/-! ## Faults -/

/-- Why a file has no value. -/
inductive ParseFault where
  | notText (f : Text.Utf8.Fault)
  | json (text : Text) (f : Json.Fault)
  | yaml (f : Yaml.Fault)

/-- Why a file cannot be loaded. -/
inductive Fault where
  | missing
  | unsupported
  | unreadable (f : ReadFault)
  | parse (format : Format) (f : ParseFault)
  | notMapping
  | repeatedSymbol (key : Value)

/-- The message for a text without value, if the fault has one. -/
def ParseFault.message? : ParseFault → Option Text
  | .notText f => some f.message
  | .json text f => some (f.message text)
  | .yaml f => f.message?

/-- The symbol that a text defines twice, when that is its fault. -/
def ParseFault.symbol? : ParseFault → Option Text
  | .json _ (.duplicateKey k) => some k
  | .yaml (.repeatedKey k _) => some k.shown
  | _ => none

/-- The code of a fault. -/
def Fault.code : Fault → Text
  | .missing => "E_FILE_NOT_FOUND".toList
  | .unsupported => "E_UNSUPPORTED_FORMAT".toList
  | .unreadable _ => "E_FILE_READ".toList
  | .parse format f =>
    match f.symbol? with
    | some _ => "E_DUPLICATE_SYMBOL".toList
    | none => format.code
  | .notMapping => "E_INVALID_TOP_LEVEL".toList
  | .repeatedSymbol _ => "E_DUPLICATE_SYMBOL".toList

/-- The message for a fault at a path.  That a text is not well-formed is
said when there is nothing more exact to say. -/
def Fault.message (p : Path) : Fault → Text
  | .missing => "file does not exist".toList
  | .unsupported => "supported formats are .json, .yaml, .yml".toList
  | .unreadable f => f.message p
  | .parse _ f => f.message?.getD "the document is not well-formed".toList
  | .notMapping => "top-level document must map symbol names to candidates".toList
  | .repeatedSymbol key => "symbol defined more than once: ".toList ++ key.shown

/-- The symbol a fault is about. -/
def Fault.symbol? : Fault → Option Text
  | .parse _ f => f.symbol?
  | .repeatedSymbol key => some key.shown
  | _ => none

/-- A fault at a path as a diagnostic. -/
def Fault.diagnostic (p : Path) (f : Fault) : Diagnostic :=
  ⟨.load, f.code, f.message p, some p.toText, f.symbol?, none⟩

/-- Whether a fault is one of the loader itself and no diagnostic: a tag
asks for a kind of value that the text under it cannot even look like. -/
def Fault.escapes : Fault → Bool
  | .parse _ (.yaml f) =>
    match f with
    | .itemsForPairs | .unknownWord _ | .noDigits | .notDate => true
    | _ => false
  | _ => false

/-! ## Loading -/

/-- The value of a text in a format. -/
def parse (format : Format) (t : Text) : Except ParseFault Value :=
  match format with
  | .json => (Json.parse t).mapError (.json t)
  | .yaml => (Yaml.parse .strict t).mapError .yaml

/-- A key as the name of a symbol: whole numbers are written out. -/
def symbolKey : Value → Value
  | .int n => .str (Text.ofInt n)
  | k => k

/-- The entries with their keys as names, behind those that were taken
already; a name that is there before is the fault. -/
def nameEntries (before : List (Value × Value)) :
    List (Value × Value) → Except Fault (List (Value × Value))
  | [] => .ok before
  | (k, v) :: rest =>
    let key := symbolKey k
    if Assoc.contains before key then .error (.repeatedSymbol key)
    else nameEntries (before ++ [(key, v)]) rest

/-- The entries of a value that is a mapping. -/
def entriesOf : Value → Except Fault (List (Value × Value))
  | .dict entries => nameEntries [] entries
  | _ => .error .notMapping

/-- The entries of the grammar file at a path. -/
def load (tree : FileTree) (p : Path) : Except Fault (List (Value × Value)) :=
  if !tree.contains p then .error .missing
  else match Format.ofPath? p with
    | none => .error .unsupported
    | some format =>
      match tree.readText p with
      | .error (.notText f) => .error (.parse format (.notText f))
      | .error f => .error (.unreadable f)
      | .ok t =>
        match parse format t with
        | .error f => .error (.parse format f)
        | .ok v => entriesOf v

end TextGrammar.GrammarFile
