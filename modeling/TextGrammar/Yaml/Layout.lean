/-
# `TextGrammar.Yaml.Layout` — the tokens of a text by its layout

Tokens are found from left to right.  In blocks the column tells where a
sequence or mapping starts and ends.  That something is a key shows only
at the colon behind it: until then its place is kept as a candidate, one
for each level of brackets, and at the colon the tokens that make it a
key are put in at that place.
-/
import TextGrammar.Yaml.Property
import TextGrammar.Yaml.Plain

namespace TextGrammar.Yaml

/-! ## State -/

/-- A place from which on a key may stand. -/
structure Candidate where
  /-- The level of brackets it is in. -/
  level : Nat
  /-- How many tokens come before it. -/
  tokens : Nat
  /-- Whether nothing else than a key may stand there. -/
  required : Bool
  index : Nat
  line : Nat
  column : Nat

/-- How far a text has been read. -/
structure Layout where
  place : Place
  tokens : Array Token
  /-- The number of open brackets. -/
  level : Nat
  /-- The column of the innermost block, or `-1` outside of all. -/
  indent : Int
  /-- The columns of the blocks around it, the innermost first. -/
  outer : List Int
  /-- Whether a key may start here. -/
  keyAllowed : Bool
  candidates : List Candidate

namespace Layout

/-- The front of a text. -/
def ofText (t : Text) : Layout := ⟨.ofText t, #[], 0, -1, [], true, []⟩

/-- Whether brackets are open. -/
def inFlow (s : Layout) : Bool := 0 < s.level

/-- Adds a token that starts in a line. -/
def push (s : Layout) (line : Nat) (kind : TokenKind) : Layout :=
  { s with tokens := s.tokens.push ⟨kind, line⟩ }

/-! ## Blocks -/

/-- Closes the blocks that are indented deeper than a column. -/
def unwindFrom (s : Layout) (column : Int) : Int → List Int → Layout
  | indent, [] => { s with indent := indent, outer := [] }
  | indent, i :: outer =>
    if column < indent then unwindFrom (s.push s.place.line .blockEnd) column i outer
    else { s with indent := indent, outer := i :: outer }

/-- Closes the blocks that are indented deeper than a column; within
brackets the column means nothing. -/
def unwind (s : Layout) (column : Int) : Layout :=
  if s.inFlow then s else unwindFrom s column s.indent s.outer

/-- Whether a block at this column is a new one. -/
def opensBlock (s : Layout) (column : Nat) : Bool := !s.inFlow && s.indent < column

/-- Makes a column the innermost block. -/
def openBlock (s : Layout) (column : Nat) : Layout :=
  { s with indent := column, outer := s.indent :: s.outer }

/-- Opens a block at the current column if that is a new one. -/
def startBlock (s : Layout) (kind : TokenKind) : Layout :=
  let p := s.place
  if s.opensBlock p.column then (s.openBlock p.column).push p.line kind else s

/-! ## Candidates for keys -/

/-- Forgets candidates that are too far away.  A key has to end in its
line and within 1024 characters. -/
def dropStale (s : Layout) : Except Fault Layout :=
  let isStale := fun (c : Candidate) => c.line ≠ s.place.line || 1024 < s.place.index - c.index
  if s.candidates.any fun c => isStale c && c.required then .error .malformed
  else .ok { s with candidates := s.candidates.filter fun c => !isStale c }

/-- Forgets the candidate of the current level. -/
def dropCandidate (s : Layout) : Except Fault Layout :=
  if s.candidates.any fun c => c.level = s.level ∧ c.required then .error .malformed
  else .ok { s with candidates := s.candidates.filter fun c => c.level ≠ s.level }

/-- Makes this place a candidate, if a key may start here. -/
def addCandidate (s : Layout) : Except Fault Layout :=
  if s.keyAllowed then do
    let p := s.place
    let required := !s.inFlow && s.indent == p.column
    let s ← s.dropCandidate
    return { s with
      candidates := ⟨s.level, s.tokens.size, required, p.index, p.line, p.column⟩ :: s.candidates }
  else .ok s

/-! ## Tokens of one kind -/

/-- Adds the token of a mark of `length` characters. -/
def mark (s : Layout) (length : Nat) (kind : TokenKind) : Layout :=
  { s.push s.place.line kind with place := s.place.skip length }

/-- The end of the text. -/
def finish (s : Layout) : Except Fault Layout := do
  let s ← (s.unwind (-1)).dropCandidate
  return { s with keyAllowed := false, candidates := [] }.push s.place.line .streamEnd

/-- A directive. -/
def directive (s : Layout) : Except Fault Layout := do
  let s ← (s.unwind (-1)).dropCandidate
  let (d, p) ← Property.directive s.place
  return { s.push s.place.line (.directive d) with keyAllowed := false, place := p }

/-- A document marker. -/
def marker (s : Layout) (kind : TokenKind) : Except Fault Layout := do
  let s ← (s.unwind (-1)).dropCandidate
  return { s with keyAllowed := false }.mark 3 kind

/-- An opening bracket. -/
def openFlow (s : Layout) (kind : TokenKind) : Except Fault Layout := do
  let s ← s.addCandidate
  return { s with level := s.level + 1, keyAllowed := true }.mark 1 kind

/-- A closing bracket. -/
def closeFlow (s : Layout) (kind : TokenKind) : Except Fault Layout := do
  let s ← s.dropCandidate
  return { s with level := s.level - 1, keyAllowed := false }.mark 1 kind

/-- A comma within brackets. -/
def flowEntry (s : Layout) : Except Fault Layout := do
  let s ← { s with keyAllowed := true }.dropCandidate
  return s.mark 1 .flowEntry

/-- The hyphen of an item. -/
def blockEntry (s : Layout) : Except Fault Layout :=
  if !s.inFlow && !s.keyAllowed then .error .malformed
  else do
    let s ← { s.startBlock .blockSequenceStart with keyAllowed := true }.dropCandidate
    return s.mark 1 .blockEntry

/-- A question mark in front of a key. -/
def explicitKey (s : Layout) : Except Fault Layout :=
  if !s.inFlow && !s.keyAllowed then .error .malformed
  else do
    let s ← { s.startBlock .blockMappingStart with keyAllowed := !s.inFlow }.dropCandidate
    return s.mark 1 .key

/-- Puts in the tokens that make a key of what stands at a candidate. -/
def insertKey (s : Layout) (c : Candidate) : Layout :=
  let tokens := s.tokens.insertIdxIfInBounds c.tokens ⟨.key, c.line⟩
  if s.opensBlock c.column then
    { s.openBlock c.column with
      tokens := tokens.insertIdxIfInBounds c.tokens ⟨.blockMappingStart, c.line⟩ }
  else { s with tokens := tokens }

/-- The colon behind a key. -/
def value (s : Layout) : Except Fault Layout :=
  match s.candidates.find? fun c => c.level = s.level with
  | some c =>
    let s := { s with candidates := s.candidates.filter fun c => c.level ≠ s.level }
    .ok ({ s.insertKey c with keyAllowed := false }.mark 1 .value)
  | none =>
    if !s.inFlow && !s.keyAllowed then .error .malformed
    else do
      let s ← { s.startBlock .blockMappingStart with keyAllowed := !s.inFlow }.dropCandidate
      return s.mark 1 .value

/-- A token that may start a key and is read by a function of its own. -/
def content (s : Layout) (read : Place → Except Fault (TokenKind × Place)) :
    Except Fault Layout := do
  let s ← s.addCandidate
  let (kind, p) ← read s.place
  return { s.push s.place.line kind with keyAllowed := false, place := p }

/-- A literal or folded scalar. -/
def blockScalar (s : Layout) : Except Fault Layout := do
  let s ← { s with keyAllowed := true }.dropCandidate
  let (t, p) ← Block.read s.indent s.place
  return { s.push s.place.line (.scalar t false) with place := p }

/-- A scalar without quotes.  Behind a line end a key may follow. -/
def plainScalar (s : Layout) : Except Fault Layout := do
  let s ← s.addCandidate
  let r := Plain.read s.inFlow (s.indent + 1) s.place
  return { s.push s.place.line (.scalar r.text true) with
    keyAllowed := r.crossed, place := r.place }

/-! ## The next token -/

/-- Goes to the next character that is neither blank nor comment.  At a
new line in a block a key may start. -/
def toNext : Nat → Layout → Layout
  | 0, s => s
  | steps + 1, s =>
    let p := (s.place.skipWhile (· == ' ')).skipComment
    if isBreak p.here then
      toNext steps { s with place := p.lineBreak.2, keyAllowed := s.keyAllowed || !s.inFlow }
    else { s with place := p }

/-- Whether a plain scalar may start here. -/
def startsPlain (s : Layout) : Bool :=
  let c := s.place.here
  let hyphen := c == '-'
  let inBlock := !s.inFlow && (c == '?' || c == ':')
  !(isBlankZ c || "-?:,[]\x7b\x7d#&*!|>'\"%@\x60".toList.contains c)
    || (!isBlankZ (s.place.peek 1) && (hyphen || inBlock))

/-- Whether a mark stands alone, or brackets are open. -/
def standsAlone (s : Layout) : Bool := s.inFlow || isBlankZ (s.place.peek 1)

/-- Adds the token that starts here. -/
def token (s : Layout) : Except Fault Layout :=
  let p := s.place
  let atMargin : Bool := p.column = 0
  match p.here with
  | '%' => if atMargin then s.directive else .error .malformed
  | '-' =>
    if atMargin && p.isMarker '-' then s.marker .documentStart
    else if isBlankZ (p.peek 1) then s.blockEntry
    else s.plainScalar
  | '.' => if atMargin && p.isMarker '.' then s.marker .documentEnd else s.plainScalar
  | '[' => s.openFlow .flowSequenceStart
  | '\x7b' => s.openFlow .flowMappingStart
  | ']' => s.closeFlow .flowSequenceEnd
  | '\x7d' => s.closeFlow .flowMappingEnd
  | ',' => s.flowEntry
  | '?' => if s.standsAlone then s.explicitKey else s.plainScalar
  | ':' => if s.standsAlone then s.value else s.plainScalar
  | '*' => s.content fun p => do let (t, p) ← Property.anchor p; return (.alias t, p)
  | '&' => s.content fun p => do let (t, p) ← Property.anchor p; return (.anchor t, p)
  | '!' => s.content fun p => do let (t, p) ← Property.tag p; return (.tag t, p)
  | '\'' => s.content fun p => do let (t, p) ← Quoted.read p; return (.scalar t false, p)
  | '"' => s.content fun p => do let (t, p) ← Quoted.read p; return (.scalar t false, p)
  | '|' => if s.inFlow then .error .malformed else s.blockScalar
  | '>' => if s.inFlow then .error .malformed else s.blockScalar
  | _ => if s.startsPlain then s.plainScalar else .error .malformed

/-- Goes on to the end of the text.  Every token that is not made of the
layout takes a character. -/
def run : Nat → Layout → Except Fault (List Token)
  | 0, _ => .error .malformed
  | steps + 1, s => do
    let s ← (toNext (s.place.rest.length + 1) s).dropStale
    let s := s.unwind s.place.column
    if s.place.rest.isEmpty then
      return (← s.finish).tokens.toList
    else run steps (← s.token)

end Layout

/-- The tokens of a text. -/
def tokens (t : Text) : Except Fault (List Token) :=
  if t.all isAllowed then
    let t := match t with
      | '\ufeff' :: rest => rest
      | _ => t
    (Layout.ofText t).run (t.length + 1)
  else .error .malformed

end TextGrammar.Yaml
