/-
# `TextGrammar.Yaml.Token` — the tokens of a YAML text

Tokens for what is written, and for the structure that indentation and
the colon of a key bring about.
-/
import TextGrammar.Text.Basic

namespace TextGrammar.Yaml

/-- A line above a document. -/
inductive Directive where
  | version (major : Nat)
  | tagPrefix (handle expansion : Text)
  | other
deriving DecidableEq, Repr

/-- A tag as it is written: a handle, which may be missing, and what
follows it. -/
structure TagText where
  handle : Option Text
  suffix : Text
deriving DecidableEq, Repr

/-- What a token is. -/
inductive TokenKind where
  | streamEnd
  | directive (d : Directive)
  | documentStart
  | documentEnd
  | blockSequenceStart
  | blockMappingStart
  | blockEnd
  | flowSequenceStart
  | flowSequenceEnd
  | flowMappingStart
  | flowMappingEnd
  | blockEntry
  | flowEntry
  | key
  | value
  | alias (name : Text)
  | anchor (name : Text)
  | tag (t : TagText)
  | scalar (text : Text) (plain : Bool)
deriving DecidableEq, Repr

/-- A token and the line it starts in, counted from zero. -/
structure Token where
  kind : TokenKind
  line : Nat
deriving DecidableEq, Repr

end TextGrammar.Yaml
