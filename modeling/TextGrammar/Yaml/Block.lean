/-
# `TextGrammar.Yaml.Block` — literal and folded scalars

A block scalar is announced by a bar or an angle and is made of the lines
below that are indented deep enough.  Signs in the announcement tell what
becomes of the line ends at its end and how deep the indentation is.
-/
import TextGrammar.Yaml.Fault
import TextGrammar.Yaml.Place

namespace TextGrammar.Yaml.Block

/-! ## The announcement -/

/-- What becomes of the line ends at the end: the last one stays, none
stays, or all stay. -/
inductive Chomping where
  | clip
  | strip
  | keep
deriving DecidableEq, Repr

/-- A sign for the line ends, if one is here. -/
def chomping? (p : Place) : Option (Chomping × Place) :=
  if p.here = '+' then some (.keep, p.next)
  else if p.here = '-' then some (.strip, p.next)
  else none

/-- A digit for the indentation, if one is here; zero is refused. -/
def increment? (p : Place) : Except Fault (Option Nat × Place) :=
  if p.here = '0' then .error .malformed
  else if p.here.isDigit then .ok (some (p.here.toNat - 48), p.next)
  else .ok (none, p)

/-- The signs of an announcement, in either order. -/
def signs (p : Place) : Except Fault (Chomping × Option Nat × Place) :=
  match chomping? p with
  | some (chomping, p) => do
    let (increment, p) ← increment? p
    return (chomping, increment, p)
  | none => do
    let (increment, p) ← increment? p
    match increment, chomping? p with
    | some n, some (chomping, p) => return (chomping, some n, p)
    | increment, _ => return (.clip, increment, p)

/-- Goes behind a line on which nothing but a comment may follow. -/
def restOfLine (p : Place) : Except Fault Place :=
  let p := (p.skipWhile (· == ' ')).skipComment
  if isBreakZ p.here then .ok p.lineBreak.2 else .error .malformed

/-! ## Lines -/

/-- The place behind the blanks of an indentation, at most up to a
column. -/
def skipIndent (indent : Nat) (p : Place) : Place :=
  p.skip (min (p.rest.takeWhile (· == ' ')).length (indent - p.column))

/-- The ends of empty lines from here on, and the place in the first line
that is not empty or is indented deep enough. -/
def emptyLines (indent : Nat) : Nat → Place → Text × Place
  | 0, p => ([], p)
  | steps + 1, p =>
    let p := skipIndent indent p
    if isBreak p.here then
      let (first, p) := p.lineBreak
      let (rest, p) := emptyLines indent steps p
      (first ++ rest, p)
    else ([], p)

/-- The ends of empty lines from here on, the deepest column seen, and
the place of the first character that is no blank. -/
def findIndent : Nat → Nat → Place → Text × Nat × Place
  | 0, deepest, p => ([], deepest, p)
  | steps + 1, deepest, p =>
    if isBreak p.here then
      let (first, p) := p.lineBreak
      let (rest, deepest, p) := findIndent steps deepest p
      (first ++ rest, deepest, p)
    else if p.here = ' ' then
      let p := p.next
      findIndent steps (max deepest p.column) p
    else ([], deepest, p)

/-- What the end of a line stands for when another line follows. -/
def lineEnd (fold : Bool) (ending : Text) (startsWithWord nextStartsWithWord : Bool)
    (empty : Text) : Text :=
  if fold ∧ ending = ['\n'] ∧ startsWithWord ∧ nextStartsWithWord then
    if empty = [] then [' '] else []
  else ending

/-- What the line ends at the end of a scalar stand for. -/
def tailOf (chomping : Chomping) (ending empty : Text) : Text :=
  match chomping with
  | .clip => ending
  | .strip => []
  | .keep => ending ++ empty

/-- The lines of a scalar from here on, with the ends of empty lines
before them and the end of the line before those. -/
def lines (fold : Bool) (chomping : Chomping) (indent : Nat) :
    Nat → Text → Text → Place → Text × Place
  | 0, ending, empty, p => (tailOf chomping ending empty, p)
  | steps + 1, ending, empty, p =>
    if p.column = indent ∧ p.here ≠ atEnd then
      let startsWithWord := !isBlank p.here
      let (line, p) := p.takeWhile (!isBreakZ ·)
      let (ending, p) := p.lineBreak
      let (empty', p) := emptyLines indent (p.rest.length + 1) p
      let (rest, q) := lines fold chomping indent steps ending empty' p
      let joint :=
        if p.column = indent ∧ p.here ≠ atEnd then
          lineEnd fold ending startsWithWord (!isBlank p.here) empty'
        else []
      (empty ++ line ++ joint ++ rest, q)
    else (tailOf chomping ending empty, p)

/-! ## Scalars -/

/-- The block scalar that is announced here, within a block indented to
`indent`, and the place behind it. -/
def read (indent : Int) (p : Place) : Except Fault (Text × Place) := do
  let fold := p.here = '>'
  let (chomping, increment, p) ← signs p.next
  if !isSpaceZ p.here then .error .malformed
  else
    let p ← restOfLine p
    let least := (max (indent + 1) 1).toNat
    let steps := p.rest.length + 1
    match increment with
    | some n =>
      let indent := least + n - 1
      let (empty, p) := emptyLines indent steps p
      return lines fold chomping indent steps [] empty p
    | none =>
      let (empty, deepest, p) := findIndent steps 0 p
      return lines fold chomping (max least deepest) steps [] empty p

end TextGrammar.Yaml.Block
