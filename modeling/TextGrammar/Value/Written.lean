/-
# `TextGrammar.Value.Written` — values as text

`Value.written` shows a value so that its kind can be seen, with texts in
quotes; `Value.shown` gives a text as it is and dates in the ISO form.
-/
import TextGrammar.Text.Quoted
import TextGrammar.Number.Shortest
import TextGrammar.Value.Basic

namespace TextGrammar.Value

mutual

/-- A value so that its kind can be seen. -/
def written : Value → Text
  | .null => "None".toList
  | .bool b => if b then "True".toList else "False".toList
  | .int n => Text.ofInt n
  | .float x => x.toText
  | .str t => Text.quoted t
  | .list vs => '[' :: Text.join ", ".toList (writtenAll vs) ++ [']']
  | .tuple vs =>
    match vs with
    | [v] => '(' :: written v ++ ",)".toList
    | vs => '(' :: Text.join ", ".toList (writtenAll vs) ++ [')']
  | .dict es => '\x7b' :: Text.join ", ".toList (writtenEntries es) ++ ['\x7d']
  | .set vs =>
    if vs.isEmpty then "set()".toList
    else '\x7b' :: Text.join ", ".toList (writtenAll vs) ++ ['\x7d']
  | .bytes bs => Text.quotedBytes bs
  | .date d => d.written
  | .moment m => m.written

/-- Each value of a list as `written`. -/
def writtenAll : List Value → List Text
  | [] => []
  | v :: vs => written v :: writtenAll vs

/-- Each entry of a dictionary as `written`. -/
def writtenEntries : List (Value × Value) → List Text
  | [] => []
  | (k, v) :: es => (written k ++ ": ".toList ++ written v) :: writtenEntries es

end

/-- A value as a reader of messages expects it. -/
def shown : Value → Text
  | .str t => t
  | .date d => d.iso
  | .moment m => m.iso ' '
  | v => v.written

end TextGrammar.Value
