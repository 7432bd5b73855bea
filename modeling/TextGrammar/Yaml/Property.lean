/-
# `TextGrammar.Yaml.Property` — anchors, tags and directives
-/
import TextGrammar.Text.Utf8
import TextGrammar.Yaml.Block
import TextGrammar.Yaml.Token

namespace TextGrammar.Yaml.Property

/-! ## Anchors -/

/-- Whether a character may follow the name of an anchor. -/
def endsName (c : Char) : Bool := isBlankZ c || "?:,]\x7d%@\x60".toList.contains c

/-- The name of the anchor or alias whose mark is here. -/
def anchor (p : Place) : Except Fault (Text × Place) :=
  let (name, p) := p.next.takeWhile isNameChar
  if name = [] ∨ !endsName p.here then .error .malformed else .ok (name, p)

/-! ## Tags -/

/-- Whether a character may stand in the address of a tag. -/
def isAddressChar (c : Char) : Bool :=
  c.isAlphanum || "-;/?:@&=+$,_.!~*'()[]%".toList.contains c

/-- The bytes of the escapes from here on, two digits behind each percent
sign. -/
def escapedBytes : Nat → Place → Except Fault (List UInt8 × Place)
  | 0, p => .ok ([], p)
  | steps + 1, p =>
    if p.here = '%' then
      let digits := p.next.rest.take 2
      if digits.length = 2 ∧ digits.all (Numeral.isDigitOf 16) then do
        let (bytes, q) ← escapedBytes steps (p.skip 3)
        return (UInt8.ofNat (Text.readNat 16 digits) :: bytes, q)
      else .error .malformed
    else .ok ([], p)

/-- The address from here on, with its escapes read. -/
def addressFrom : Nat → Place → Except Fault (Text × Place)
  | 0, p => .ok ([], p)
  | steps + 1, p =>
    if p.here = '%' then do
      let (bytes, p) ← escapedBytes (p.rest.length + 1) p
      match Text.Utf8.decode bytes with
      | .error _ => .error .malformed
      | .ok t =>
        let (rest, p) ← addressFrom steps p
        return (t ++ rest, p)
    else if isAddressChar p.here then do
      let (rest, q) ← addressFrom steps p.next
      return (p.here :: rest, q)
    else .ok ([], p)

/-- The address from here on; there has to be one. -/
def address (p : Place) : Except Fault (Text × Place) :=
  if isAddressChar p.here then addressFrom (p.rest.length + 1) p else .error .malformed

/-- The handle at the front of a tag: an exclamation mark, or a name
between two. -/
def handle (p : Place) : Except Fault (Text × Place) :=
  if p.here ≠ '!' then .error .malformed
  else if p.peek 1 = ' ' then .ok (['!'], p.next)
  else
    let (name, q) := p.next.takeWhile isNameChar
    if q.here = '!' then .ok ('!' :: name ++ ['!'], q.next) else .error .malformed

/-- A tag whose exclamation mark is here, without a check of what follows
it. -/
def tagText (p : Place) : Except Fault (TagText × Place) :=
  let c := p.peek 1
  if c = '<' then do
    let (suffix, p) ← address (p.skip 2)
    if p.here = '>' then return (⟨none, suffix⟩, p.next) else .error .malformed
  else if isBlankZ c then .ok (⟨none, ['!']⟩, p.next)
  else do
    let word := p.next.rest.takeWhile (!isSpaceZ ·)
    let (handle, p) ← if word.contains '!' then handle p else .ok (['!'], p.next)
    let (suffix, p) ← address p
    return (⟨some handle, suffix⟩, p)

/-- The tag whose exclamation mark is here. -/
def tag (p : Place) : Except Fault (TagText × Place) := do
  let (t, p) ← tagText p
  if isSpaceZ p.here then return (t, p) else .error .malformed

/-! ## Directives -/

/-- The number from here on. -/
def number (p : Place) : Except Fault (Nat × Place) :=
  let (digits, p) := p.takeWhile Char.isDigit
  if digits = [] then .error .malformed else .ok (Text.readNat 10 digits, p)

/-- The rest of a version line. -/
def version (p : Place) : Except Fault (Directive × Place) := do
  let (major, p) ← number (p.skipWhile (· == ' '))
  if p.here ≠ '.' then .error .malformed
  else
    let (_, p) ← number p.next
    if isSpaceZ p.here then return (.version major, p) else .error .malformed

/-- The rest of a line that gives a handle its meaning. -/
def tagPrefix (p : Place) : Except Fault (Directive × Place) := do
  let (handle, p) ← handle (p.skipWhile (· == ' '))
  if p.here ≠ ' ' then .error .malformed
  else
    let (expansion, p) ← address (p.skipWhile (· == ' '))
    if isSpaceZ p.here then return (.tagPrefix handle expansion, p) else .error .malformed

/-- The directive whose percent sign is here, and the place in the next
line. -/
def directive (p : Place) : Except Fault (Directive × Place) := do
  let (name, p) := p.next.takeWhile isNameChar
  if name = [] ∨ !isSpaceZ p.here then .error .malformed
  else
    let (d, p) ←
      if name = "YAML".toList then version p
      else if name = "TAG".toList then tagPrefix p
      else .ok (.other, p.skipWhile (!isBreakZ ·))
    return (d, ← Block.restOfLine p)

end TextGrammar.Yaml.Property
