/-
# `TextGrammar.Yaml.Plain` — scalars without quotes

A plain scalar runs to a comment, to a colon that ends a key, or, within
brackets, to a bracket or a comma.  It goes on in lines that are indented
deeper than what is around it.
-/
import TextGrammar.Yaml.Quoted

namespace TextGrammar.Yaml.Plain

/-- Whether a character separates or closes within brackets. -/
def isFlowMark (c : Char) : Bool :=
  c == ',' || c == '[' || c == ']' || c == '\x7b' || c == '\x7d'

/-- Whether a colon in front of `c` ends what stands before it. -/
def endsKey (flow : Bool) (c : Char) : Bool := isBlankZ c || (flow && isFlowMark c)

/-- The length of the word at the front of a text. -/
def wordLength (flow : Bool) : Text → Nat
  | [] => 0
  | c :: cs =>
    if isBlankZ c || (c == ':' && endsKey flow (cs.headD atEnd))
        || (flow && (isFlowMark c || c == '?')) then 0
    else wordLength flow cs + 1

/-- White space behind a word. -/
structure Gap where
  /-- What it stands for; nothing if no word may follow. -/
  text : Text
  /-- Whether a line ended in it. -/
  crossed : Bool
  /-- The place behind it. -/
  place : Place

/-- The line ends from here on with the blanks around them skipped;
nothing if a document marker follows one of them. -/
def emptyLines : Nat → Place → Option Text × Place
  | 0, p => (some [], p)
  | steps + 1, p =>
    let p := p.skipWhile (· == ' ')
    if isBreak p.here then
      let (first, p) := p.lineBreak
      if p.atMarker then (none, p)
      else
        let (rest, p) := emptyLines steps p
        (rest.map (first ++ ·), p)
    else (some [], p)

/-- The white space behind a word. -/
def gap (p : Place) : Gap :=
  let (blanks, p) := p.takeWhile (· == ' ')
  if isBreak p.here then
    let (first, p) := p.lineBreak
    if p.atMarker then ⟨[], true, p⟩
    else match emptyLines (p.rest.length + 1) p with
      | (some rest, p) => ⟨Quoted.folded first rest, true, p⟩
      | (none, p) => ⟨[], true, p⟩
  else ⟨blanks, false, p⟩

/-- A plain scalar that was read. -/
structure Reading where
  text : Text
  /-- Whether a line ended behind the last word. -/
  crossed : Bool
  place : Place

/-- Goes on with a scalar behind a gap; lines that are indented less than
`indent` do not belong to it. -/
def readFrom (flow : Bool) (indent : Int) : Nat → Text → Gap → Reading
  | 0, before, g => ⟨before, g.crossed, g.place⟩
  | steps + 1, before, g =>
    let p := g.place
    let n := wordLength flow p.rest
    if p.here = '#' ∨ n = 0 then ⟨before, g.crossed, p⟩
    else
      let text := before ++ g.text ++ p.rest.take n
      let g := gap (p.skip n)
      if g.text = [] ∨ g.place.here = '#' ∨ (!flow ∧ (g.place.column : Int) < indent) then
        ⟨text, g.crossed, g.place⟩
      else readFrom flow indent steps text g

/-- The plain scalar that starts here. -/
def read (flow : Bool) (indent : Int) (p : Place) : Reading :=
  readFrom flow indent (p.rest.length + 1) [] ⟨[], false, p⟩

end TextGrammar.Yaml.Plain
