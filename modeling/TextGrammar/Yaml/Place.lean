/-
# `TextGrammar.Yaml.Place` — a place in a YAML text

A place is the text from there on, with the line and the column it is
in.  Lines end at a line feed, at the next-line control and at the two
Unicode separators; the last two stay what they are when lines are
folded, the others become a line feed.  The end of the text reads as the
character with code zero, which no text holds.
-/
import TextGrammar.Text.Basic

namespace TextGrammar.Yaml

/-! ## Classes of characters -/

/-- The character that stands for the end of the text. -/
def atEnd : Char := '\x00'

/-- Whether a line ends with the character. -/
def isBreak (c : Char) : Bool := c == '\n' || c == '\x85' || c == '\u2028' || c == '\u2029'

/-- Whether a line or the text ends here. -/
def isBreakZ (c : Char) : Bool := c == atEnd || isBreak c

/-- Whether a line or the text ends here, or a blank separates words. -/
def isSpaceZ (c : Char) : Bool := c == ' ' || isBreakZ c

/-- Whether white space or an end is here. -/
def isBlankZ (c : Char) : Bool := c == '\t' || isSpaceZ c

/-- Whether a blank or a tabulator is here. -/
def isBlank (c : Char) : Bool := c == ' ' || c == '\t'

/-- Whether a character may stand in a name. -/
def isNameChar (c : Char) : Bool := c.isAlphanum || c == '-' || c == '_'

/-- Whether a character may stand in a text at all. -/
def isAllowed (c : Char) : Bool :=
  let n := c.toNat
  n == 0x09 || n == 0x0a || n == 0x0d || (0x20 ≤ n && n ≤ 0x7e) || n == 0x85
    || (0xa0 ≤ n && n ≤ 0xfffd) || 0x10000 ≤ n

/-! ## Places -/

/-- A place: the rest of the text, its distance from the front, its line
and its column, all counted from zero. -/
structure Place where
  rest : Text
  index : Nat
  line : Nat
  column : Nat

namespace Place

/-- The front of a text. -/
def ofText (t : Text) : Place := ⟨t, 0, 0, 0⟩

/-- The character `n` places ahead. -/
def peek (p : Place) (n : Nat) : Char := p.rest.getD n atEnd

/-- The character at the place. -/
def here (p : Place) : Char := p.rest.headD atEnd

/-- The place behind one character.  A byte order mark takes no column. -/
def next (p : Place) : Place :=
  match p.rest with
  | [] => p
  | c :: cs =>
    if isBreak c then ⟨cs, p.index + 1, p.line + 1, 0⟩
    else ⟨cs, p.index + 1, p.line, if c = '\ufeff' then p.column else p.column + 1⟩

/-- The place behind `n` characters. -/
def skip : Nat → Place → Place
  | 0, p => p
  | n + 1, p => skip n p.next

/-- The characters from here on that satisfy a test, and the place behind
them. -/
def takeWhile (test : Char → Bool) (p : Place) : Text × Place :=
  let word := p.rest.takeWhile test
  (word, p.skip word.length)

/-- The place behind the characters that satisfy a test. -/
def skipWhile (test : Char → Bool) (p : Place) : Place := (p.takeWhile test).2

/-- A line end if there is one here, as it reads, and the place behind
it. -/
def lineBreak (p : Place) : Text × Place :=
  let c := p.here
  if c = '\n' ∨ c = '\x85' then (['\n'], p.next)
  else if isBreak c then ([c], p.next)
  else ([], p)

/-- The place behind a comment and before the line end. -/
def skipComment (p : Place) : Place :=
  if p.here = '#' then p.skipWhile (!isBreakZ ·) else p

/-- Whether three hyphens or three dots alone mark an end of a document
here, wherever in the line. -/
def isMarker (c : Char) (p : Place) : Bool :=
  p.rest.take 3 == [c, c, c] && isBlankZ (p.peek 3)

/-- Whether either of the document markers is here. -/
def atMarker (p : Place) : Bool := p.isMarker '-' || p.isMarker '.'

end Place

end TextGrammar.Yaml
