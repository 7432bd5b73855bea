/-
# `TextGrammar.Yaml.Quoted` — scalars between quotes

Between apostrophes a doubled apostrophe is one; between double quotes a
backslash starts an escape.  White space around a line end folds to one
blank, or to the empty lines in between.

A text has no character for half of a surrogate pair.  An escape of such
a code is read as the character of code zero.
-/
import TextGrammar.Yaml.Fault
import TextGrammar.Yaml.Place

namespace TextGrammar.Yaml.Quoted

/-! ## Line ends -/

/-- The line ends from here on, with the white space around them skipped.
A document marker at the front of a line is refused. -/
def emptyLines : Nat → Place → Except Fault (Text × Place)
  | 0, _ => .error .malformed
  | steps + 1, p =>
    if p.atMarker then .error .malformed
    else
      let p := p.skipWhile isBlank
      if isBreak p.here then do
        let (first, p) := p.lineBreak
        let (rest, p) ← emptyLines steps p
        return (first ++ rest, p)
      else .ok ([], p)

/-- What a line end followed by empty lines folds to. -/
def folded (first rest : Text) : Text :=
  if first ≠ ['\n'] then first ++ rest else if rest = [] then [' '] else rest

/-- What white space between two words stands for. -/
def between (p : Place) : Except Fault (Text × Place) :=
  let (blanks, p) := p.takeWhile isBlank
  if p.here = atEnd then .error .malformed
  else if isBreak p.here then do
    let (first, p) := p.lineBreak
    let (rest, p) ← emptyLines (p.rest.length + 1) p
    return (folded first rest, p)
  else .ok (blanks, p)

/-! ## Escapes -/

/-- The character of an escape of one letter. -/
def escaped? : Char → Option Char
  | '0' => some '\x00'
  | 'a' => some '\x07'
  | 'b' => some '\x08'
  | 't' => some '\t'
  | '\t' => some '\t'
  | 'n' => some '\n'
  | 'v' => some '\x0b'
  | 'f' => some '\x0c'
  | 'r' => some '\r'
  | 'e' => some '\x1b'
  | ' ' => some ' '
  | '"' => some '"'
  | '\\' => some '\\'
  | '/' => some '/'
  | 'N' => some '\x85'
  | '_' => some '\xa0'
  | 'L' => some '\u2028'
  | 'P' => some '\u2029'
  | _ => none

/-- How many hexadecimal digits follow the letter of an escape. -/
def codeLength? : Char → Option Nat
  | 'x' => some 2
  | 'u' => some 4
  | 'U' => some 8
  | _ => none

/-- What an escape stands for, from behind its backslash on. -/
def escape (p : Place) : Except Fault (Text × Place) :=
  match escaped? p.here, codeLength? p.here with
  | some c, _ => .ok ([c], p.next)
  | none, some n =>
    let p := p.next
    let digits := p.rest.take n
    if digits.length = n ∧ digits.all (Numeral.isDigitOf 16) then
      let code := Text.readNat 16 digits
      if code < 0x110000 then .ok ([Char.ofNat code], p.skip n) else .error .codeTooLarge
    else .error .malformed
  | none, none =>
    if isBreak p.here then emptyLines (p.rest.length + 1) p.lineBreak.2 else .error .malformed

/-! ## Scalars -/

/-- The characters of a scalar from here to its closing quote, behind
those that were read already, the latest first. -/
def readFrom (double : Bool) : Nat → Text → Place → Except Fault (Text × Place)
  | 0, _, _ => .error .malformed
  | steps + 1, before, p =>
    let c := p.here
    if c = '"' ∧ double then .ok (before.reverse, p.next)
    else if c = '\'' ∧ !double then
      if p.peek 1 = '\'' then readFrom double steps ('\'' :: before) (p.skip 2)
      else .ok (before.reverse, p.next)
    else if c = '\\' ∧ double then do
      let (t, p) ← escape p.next
      readFrom double steps (t.reverse ++ before) p
    else if isBlankZ c then do
      let (t, p) ← between p
      readFrom double steps (t.reverse ++ before) p
    else readFrom double steps (c :: before) p.next

/-- The scalar whose opening quote is here, and the place behind it. -/
def read (p : Place) : Except Fault (Text × Place) :=
  readFrom (p.here = '"') (p.rest.length + 1) [] p.next

end TextGrammar.Yaml.Quoted
