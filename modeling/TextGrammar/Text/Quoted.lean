/-
# `TextGrammar.Text.Quoted` — texts between quotes

A text is quoted for a message so that every character of it can be
seen: between apostrophes, or between double quotes when it holds an
apostrophe and no double quote, with the backslash, the quote and all
characters without a visible form escaped.  Bytes are quoted the same
way with `b` in front.
-/
import TextGrammar.Text.Basic
import TextGrammar.Text.Printable

namespace TextGrammar.Text

/-- The mark that encloses a text: an apostrophe, unless only double
quotes save an escape. -/
def quoteMark (t : Text) : Char :=
  if t.contains '\'' && !t.contains '"' then '"' else '\''

/-- A code as an escape of the shortest form that holds it. -/
def escapeCode (n : Nat) : Text :=
  if n < 0x100 then '\\' :: 'x' :: ofNatHex 2 n
  else if n < 0x10000 then '\\' :: 'u' :: ofNatHex 4 n
  else '\\' :: 'U' :: ofNatHex 8 n

/-- One character of a quoted text. -/
def escapeChar (mark c : Char) : Text :=
  if c = mark ∨ c = '\\' then ['\\', c]
  else if c = '\t' then ['\\', 't']
  else if c = '\n' then ['\\', 'n']
  else if c = '\r' then ['\\', 'r']
  else if isPrintable c then [c]
  else escapeCode c.toNat

/-- The text between quotes. -/
def quoted (t : Text) : Text :=
  let mark := quoteMark t
  mark :: t.flatMap (escapeChar mark) ++ [mark]

/-- One byte of quoted bytes: only ASCII is shown as it is. -/
def escapeByte (mark : Char) (b : UInt8) : Text :=
  if b.toNat < 0x80 then escapeChar mark (Char.ofNat b.toNat) else escapeCode b.toNat

/-- Bytes between quotes. -/
def quotedBytes (bs : List UInt8) : Text :=
  let mark := quoteMark (bs.map fun b => Char.ofNat b.toNat)
  'b' :: mark :: bs.flatMap (escapeByte mark) ++ [mark]

end TextGrammar.Text
