/-
# `TextGrammar.Text.Case` — upper and lower case of texts

The full case mappings: one character can become several (`ß` becomes
`SS`), and a capital sigma becomes the final form `ς` when the nearest
cased character before it exists and none follows.
-/
import TextGrammar.Text.Basic
import TextGrammar.Text.CaseTable

namespace TextGrammar.Text

/-! ## Single characters -/

/-- The code that a run gives to a code it covers. -/
def CaseRun.image? (r : CaseRun) (n : Nat) : Option Nat :=
  if r.first ≤ n ∧ n ≤ r.last ∧ (n - r.first) % r.stride = 0 then some (n + r.shift).toNat
  else none

/-- The image of a character under a table of expansions and a table of
runs; the character itself if neither covers it. -/
def mapCase (expansions : List (Nat × List Nat)) (runs : List CaseRun) (c : Char) : Text :=
  match expansions.lookup c.toNat with
  | some codes => codes.map Char.ofNat
  | none => match runs.findSome? (·.image? c.toNat) with
    | some code => [Char.ofNat code]
    | none => [c]

/-- Whether a character is an ASCII letter or digit. -/
def isAlnum (c : Char) : Bool :=
  ('a' ≤ c && c ≤ 'z') || ('A' ≤ c && c ≤ 'Z') || ('0' ≤ c && c ≤ '9')

/-- The upper case of an ASCII letter; any other character stays. -/
def upperAscii (c : Char) : Char :=
  if 'a' ≤ c ∧ c ≤ 'z' then Char.ofNat (c.toNat - 32) else c

/-- The lower case of an ASCII letter; any other character stays. -/
def lowerAscii (c : Char) : Char :=
  if 'A' ≤ c ∧ c ≤ 'Z' then Char.ofNat (c.toNat + 32) else c

/-- The upper case of one character.  ASCII needs no table. -/
def upperChar (c : Char) : Text :=
  if c.toNat < 0x80 then [upperAscii c] else mapCase upperExpansions upperRuns c

/-- The lower case of one character outside any text. -/
def lowerChar (c : Char) : Text :=
  if c.toNat < 0x80 then [lowerAscii c] else mapCase lowerExpansions lowerRuns c

/-! ## Texts -/

/-- The upper case of a text. -/
def upper (t : Text) : Text := t.flatMap upperChar

/-- Whether a code lies in one of the ranges. -/
def inRanges (ranges : List (Nat × Nat)) (c : Char) : Bool :=
  ranges.any fun (first, last) => first ≤ c.toNat && c.toNat ≤ last

/-- Whether the first character that is not passed over has a case. -/
def meetsCased (t : Text) : Bool :=
  match t.dropWhile (inRanges caseSkipped) with
  | [] => false
  | c :: _ => inRanges cased c

/-- The lower case of a text that follows the characters `before`, the
nearest first. -/
def lowerAfter (before : Text) : Text → Text
  | [] => []
  | c :: cs =>
    (if c = 'Σ' then
      if meetsCased before && !meetsCased cs then ['ς'] else ['σ']
    else lowerChar c) ++ lowerAfter (c :: before) cs

/-- The lower case of a text. -/
def lower (t : Text) : Text := lowerAfter [] t

end TextGrammar.Text
