/-
# `TextGrammar.Yaml.Scalar` — the values of scalars

What the text of a scalar is worth under its tag.  Integers may be
written to the bases two, eight, ten, sixteen and sixty, fractions to the
bases ten and sixty; a date with a time is a moment.
-/
import TextGrammar.Text.Base64
import TextGrammar.Text.Case
import TextGrammar.Yaml.Fault
import TextGrammar.Yaml.Tag

namespace TextGrammar.Yaml.Scalar

/-! ## Numbers -/

/-- The sign in front of a text without underscores and what follows it;
there has to be something. -/
def cutSign (t : Text) : Except Fault (Bool × Text) :=
  match t.filter (· != '_') with
  | [] => .error .noDigits
  | t => .ok (Numeral.cutSign t)

/-- The number of a text in a base. -/
def number (base : Nat) (t : Text) : Except Fault Int :=
  match Numeral.readInt base t with
  | .ok n => .ok n
  | .error why => .error (.notInteger why)

/-- The number of the digits of a number to the base sixty. -/
def sexagesimal (digits : List Int) : Int := digits.foldl (fun n d => n * 60 + d) 0

/-- The magnitude of an integer, by the base that its front tells. -/
def magnitude (t : Text) : Except Fault Int :=
  match t with
  | [] => .error .noDigits
  | ['0'] => .ok 0
  | '0' :: 'b' :: rest => number 2 rest
  | '0' :: 'x' :: rest => number 16 rest
  | '0' :: _ => number 8 t
  | _ =>
    if t.contains ':' then sexagesimal <$> (Text.fields ':' t).mapM (number 10)
    else number 10 t

/-- An integer. -/
def int (text : Text) : Except Fault Int := do
  let (negative, t) ← cutSign text
  let n ← magnitude t
  return if negative then -n else n

/-- A fraction in decimal notation. -/
def decimal (t : Text) : Except Fault Binary64 :=
  match Numeral.readFloat? t with
  | some x => .ok x
  | none => .error (.notFloat t)

/-- The sum of the digits of a number to the base sixty, the last of them
first, each times its power. -/
def sexagesimalSum (digits : List Binary64) : Binary64 :=
  (digits.foldl (fun (sum, power) d => (Binary64.add sum (d.mulNat power), power * 60))
    (Binary64.ofInt 0, 1)).1

/-- A fraction without sign, or the word for infinity or no number. -/
def unsigned (t : Text) : Except Fault Binary64 :=
  if t = ".inf".toList then .ok (.infinity false)
  else if t = ".nan".toList then .ok .nan
  else if t.contains ':' then
    (fun ds => sexagesimalSum ds.reverse) <$> (Text.fields ':' t).mapM decimal
  else decimal t

/-- A fraction. -/
def float (text : Text) : Except Fault Binary64 := do
  let (negative, t) ← cutSign (Text.lower text)
  let x ← unsigned t
  return if negative then x.neg else x

/-! ## Words, bytes and dates -/

/-- A truth value. -/
def bool (text : Text) : Except Fault Bool :=
  let word := Text.lower text
  if ["yes", "true", "on"].any (fun w => word == w.toList) then .ok true
  else if ["no", "false", "off"].any (fun w => word == w.toList) then .ok false
  else .error (.unknownWord word)

/-- Bytes. -/
def binary (text : Text) : Except Fault (List UInt8) :=
  if text.all fun c => c.toNat < 0x80 then
    match Text.Base64.decode? text with
    | some bs => .ok bs
    | none => .error .malformed
  else .error .malformed

/-- The microseconds of the digits of a fraction of a second. -/
def microseconds (fraction : Text) : Nat :=
  let digits := fraction.take 6
  Text.readNat 10 (digits ++ List.replicate (6 - digits.length) '0')

/-- The seconds of an offset. -/
def offsetSeconds : Bool × Text × Text → Int
  | (negative, hours, minutes) =>
    let n : Int := Text.readNat 10 hours * 3600 + Text.readNat 10 minutes * 60
    if negative then -n else n

/-- The moment of a date and a time. -/
def momentOf (d : Date) (t : TimeParts) : Moment where
  date := d
  hour := Text.readNat 10 t.hour
  minute := Text.readNat 10 t.minute
  second := Text.readNat 10 t.second
  microsecond := microseconds t.fraction
  offset := t.offset.map fun o => (o.map offsetSeconds).getD 0

/-- A date, or a moment. -/
def timestamp (text : Text) : Except Fault Value :=
  match DateParts.ofText? text with
  | none => .error .notDate
  | some (parts, time?) =>
    let d : Date :=
      ⟨Text.readNat 10 parts.year, Text.readNat 10 parts.month, Text.readNat 10 parts.day⟩
    match time? with
    | none => match d.fault? with
      | some why => .error (.calendar why)
      | none => .ok (.date d)
    | some time =>
      let m := momentOf d time
      match m.fault? with
      | some why => .error (.calendar why)
      | none => .ok (.moment m)

/-! ## Scalars -/

/-- What a text is worth under the tag of a scalar. -/
def value (tag : Tag) (text : Text) : Except Fault Value :=
  match tag with
  | .null => .ok .null
  | .bool => .bool <$> bool text
  | .int => .int <$> int text
  | .float => .float <$> float text
  | .binary => .bytes <$> binary text
  | .timestamp => timestamp text
  | .str => .ok (.str text)
  | _ => .error .malformed

end TextGrammar.Yaml.Scalar
