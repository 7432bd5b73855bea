/-
# `TextGrammar.Json.Printer` — JSON texts of reports

A report is written in ASCII with one item a line, two blanks deeper for
each array or object around it, and the keys of an object in order.
-/
import TextGrammar.Text.Basic

namespace TextGrammar.Json

/-- What a report is made of. -/
inductive Report where
  | null
  | flag (b : Bool)
  | count (n : Nat)
  | text (t : Text)
  | array (items : List Report)
  | object (members : List (Text × Report))

namespace Report

/-! ## Texts -/

/-- A code of sixteen bits as an escape. -/
def escapeUnit (n : Nat) : Text := '\\' :: 'u' :: Text.ofNatHex 4 n

/-- One character between quotes; a code beyond sixteen bits is written
as the two halves of a pair. -/
def escapeChar (c : Char) : Text :=
  let n := c.toNat
  if c = '"' then ['\\', '"']
  else if c = '\\' then ['\\', '\\']
  else if c = '\n' then ['\\', 'n']
  else if c = '\r' then ['\\', 'r']
  else if c = '\t' then ['\\', 't']
  else if n = 0x08 then ['\\', 'b']
  else if n = 0x0c then ['\\', 'f']
  else if 0x20 ≤ n ∧ n < 0x7f then [c]
  else if n < 0x10000 then escapeUnit n
  else escapeUnit (0xd800 + (n - 0x10000) / 0x400) ++ escapeUnit (0xdc00 + (n - 0x10000) % 0x400)

/-- A text between quotes. -/
def quote (t : Text) : Text := '"' :: t.flatMap escapeChar ++ ['"']

/-! ## Layout -/

/-- A new line, `depth` levels deep. -/
def newLine (depth : Nat) : Text := '\n' :: List.replicate (2 * depth) ' '

/-- Lines between brackets, each one level deeper than `depth`. -/
def bracketed (opening closing : Char) (depth : Nat) (lines : List Text) : Text :=
  if lines.isEmpty then [opening, closing]
  else
    opening :: newLine (depth + 1) ++ Text.join (',' :: newLine (depth + 1)) lines
      ++ newLine depth ++ [closing]

mutual

/-- A report whose first line is `depth` levels deep. -/
def render (depth : Nat) : Report → Text
  | .null => "null".toList
  | .flag b => if b then "true".toList else "false".toList
  | .count n => Text.ofNat n
  | .text t => quote t
  | .array items => bracketed '[' ']' depth (renderItems (depth + 1) items)
  | .object members =>
    bracketed '\x7b' '\x7d' depth
      (((renderMembers (depth + 1) members).mergeSort fun a b => Text.le a.1 b.1).map (·.2))

/-- Each item of an array. -/
def renderItems (depth : Nat) : List Report → List Text
  | [] => []
  | r :: rs => render depth r :: renderItems depth rs

/-- Each member of an object, as its key and its line. -/
def renderMembers (depth : Nat) : List (Text × Report) → List (Text × Text)
  | [] => []
  | (k, r) :: rest => (k, quote k ++ ": ".toList ++ render depth r) :: renderMembers depth rest

end

end Report

end TextGrammar.Json
