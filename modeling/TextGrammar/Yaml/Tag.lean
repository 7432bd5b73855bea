/-
# `TextGrammar.Yaml.Tag` — tags, and the tags of plain scalars

A tag says what a node means.  A plain scalar without a tag gets one by
its form: the words and numerals below are recognised as a whole, and
anything else is text.
-/
import TextGrammar.Yaml.Place

namespace TextGrammar.Yaml

/-- What a node means. -/
inductive Tag where
  | null
  | bool
  | int
  | float
  | binary
  | timestamp
  | omap
  | pairs
  | set
  | str
  | seq
  | map
  | merge
  | value
  | other (name : Text)
deriving DecidableEq, Repr

namespace Tag

/-- The front of the names of the standard tags. -/
def standardPrefix : Text := "tag:yaml.org,2002:".toList

/-- The standard tags by the ends of their names. -/
def standard : List (Text × Tag) := [
  ("null".toList, .null), ("bool".toList, .bool), ("int".toList, .int), ("float".toList, .float),
  ("binary".toList, .binary), ("timestamp".toList, .timestamp), ("omap".toList, .omap),
  ("pairs".toList, .pairs), ("set".toList, .set), ("str".toList, .str), ("seq".toList, .seq),
  ("map".toList, .map), ("merge".toList, .merge), ("value".toList, .value)]

/-- The tag of a name. -/
def ofName (name : Text) : Tag :=
  let known := if standardPrefix.isPrefixOf name then
      standard.lookup (name.drop standardPrefix.length)
    else none
  known.getD (.other name)

/-! ## Forms -/

/-- What is left of a text behind the characters that satisfy a test, of
which there has to be one at least. -/
def some1 (test : Char → Bool) (t : Text) : Option Text :=
  match t.takeWhile test with
  | [] => none
  | _ => some (t.dropWhile test)

/-- What is left of a text behind an optional sign. -/
def unsigned : Text → Text
  | '+' :: rest => rest
  | '-' :: rest => rest
  | t => t

/-- Whether a character is a digit or an underscore. -/
def isDigitOrLow (c : Char) : Bool := c.isDigit || c == '_'

/-- What is left behind `:` and a number below sixty. -/
def sixtieth? : Text → Option Text
  | ':' :: a :: b :: rest =>
    if '0' ≤ a ∧ a ≤ '5' ∧ b.isDigit then some rest
    else if a.isDigit then some (b :: rest)
    else none
  | [':', a] => if a.isDigit then some [] else none
  | _ => none

/-- What is left behind as many sixtieths as there are, and whether there
was one. -/
def sixtieths : Nat → Text → Text × Bool
  | 0, t => (t, false)
  | steps + 1, t =>
    match sixtieth? t with
    | some rest => ((sixtieths steps rest).1, true)
    | none => (t, false)

/-- Whether a text is a power of ten with a sign, or empty. -/
def isPower : Text → Bool
  | [] => true
  | e :: sign :: digits =>
    (e == 'e' || e == 'E') && (sign == '+' || sign == '-') && !digits.isEmpty
      && digits.all Char.isDigit
  | _ => false

/-- Whether a text is a number to the base sixty, with a fraction or
without. -/
def isSexagesimal (fraction : Bool) (t : Text) : Bool :=
  match t with
  | d :: rest =>
    let (rest, found) := sixtieths t.length (rest.dropWhile isDigitOrLow)
    d.isDigit && (fraction || d != '0') && found
      && (if fraction then
          match rest with
          | '.' :: f => f.all isDigitOrLow
          | _ => false
        else rest.isEmpty)
  | [] => false

/-- The words for truth values. -/
def boolWords : List Text :=
  ["yes", "Yes", "YES", "no", "No", "NO", "true", "True", "TRUE", "false", "False", "FALSE",
    "on", "On", "ON", "off", "Off", "OFF"].map String.toList

/-- The words for nothing. -/
def nullWords : List Text := ["~", "null", "Null", "NULL", ""].map String.toList

/-- Whether a text has the form of an integer. -/
def isInt (t : Text) : Bool :=
  let u := unsigned t
  (match u with
    | '0' :: 'b' :: rest => !rest.isEmpty && rest.all fun c => c == '0' || c == '1' || c == '_'
    | '0' :: 'x' :: rest =>
      !rest.isEmpty && rest.all fun c => c == '_' || (c.isAlphanum && c.toLower ≤ 'f')
    | '0' :: rest => rest.all fun c => c == '_' || ('0' ≤ c && c ≤ '7')
    | d :: rest => d.isDigit && rest.all isDigitOrLow
    | [] => false)
    || isSexagesimal false u

/-- Whether a text has the form of a decimal fraction.  Only a fraction
with digits before its point has a sign. -/
def isDecimal (t : Text) : Bool :=
  match unsigned t, t with
  | d :: rest, _ =>
    (d.isDigit && (match rest.dropWhile isDigitOrLow with
      | '.' :: f => isPower (f.dropWhile isDigitOrLow)
      | _ => false))
    || (match t with
      | '.' :: d :: f => d.isDigit && isPower (f.dropWhile isDigitOrLow)
      | _ => false)
  | [], _ => false

/-- Whether a text has the form of a number with a fraction, or is a word
for an infinity or for no number. -/
def isFloat (t : Text) : Bool :=
  isDecimal t || isSexagesimal true (unsigned t)
    || [".inf", ".Inf", ".INF"].any (fun w => unsigned t == w.toList)
    || [".nan", ".NaN", ".NAN"].any (fun w => t == w.toList)

end Tag

/-! ## Dates -/

/-- The parts of a text with the form of a date, as digits. -/
structure DateParts where
  year : Text
  month : Text
  day : Text
deriving DecidableEq, Repr

/-- The parts of the time behind a date, as digits; the offset has a
sign. -/
structure TimeParts where
  hour : Text
  minute : Text
  second : Text
  fraction : Text
  offset : Option (Option (Bool × Text × Text))
deriving DecidableEq, Repr

namespace DateParts

/-- Digits at the front of a text, at least and at most as many as told,
and what follows them. -/
def cutDigits? (least most : Nat) (t : Text) : Option (Text × Text) :=
  let digits := (t.take most).takeWhile Char.isDigit
  if least ≤ digits.length then some (digits, t.drop digits.length) else none

/-- The date at the front of a text and what follows it. -/
def cut? (t : Text) : Option (DateParts × Text) := do
  let (year, t) ← cutDigits? 4 4 t
  let (month, t) ← cutDigits? 1 2 (← expect? '-' t)
  let (day, t) ← cutDigits? 1 2 (← expect? '-' t)
  return (⟨year, month, day⟩, t)
where
  /-- What follows a character that has to come first. -/
  expect? (c : Char) : Text → Option Text
    | [] => none
    | x :: rest => if x = c then some rest else none

/-- The offset that fills a text: none, universal time, or a sign with
hours and minutes. -/
def offset? (t : Text) : Option (Option (Option (Bool × Text × Text))) :=
  match t.dropWhile isBlank with
  | [] => if t.isEmpty then some none else none
  | ['Z'] => some (some none)
  | sign :: rest => do
    if sign ≠ '+' ∧ sign ≠ '-' then none
    else
      let (hours, rest) ← cutDigits? 1 2 rest
      match rest with
      | [] => some (some (some (sign = '-', hours, [])))
      | ':' :: rest =>
        let (minutes, rest) ← cutDigits? 2 2 rest
        if rest.isEmpty then some (some (some (sign = '-', hours, minutes))) else none
      | _ => none

/-- The digits of the seconds' fraction at the front of a text, if there
is a point, and what follows. -/
def cutFraction (t : Text) : Text × Text :=
  match t with
  | '.' :: rest => (rest.takeWhile Char.isDigit, rest.dropWhile Char.isDigit)
  | _ => ([], t)

/-- The time that fills the text behind a date. -/
def time? (t : Text) : Option TimeParts := do
  let t ← match t with
    | 'T' :: rest => some rest
    | 't' :: rest => some rest
    | c :: rest => if isBlank c then some (rest.dropWhile isBlank) else none
    | [] => none
  let (hour, t) ← cutDigits? 1 2 t
  let (minute, t) ← cutDigits? 2 2 (← cut?.expect? ':' t)
  let (second, t) ← cutDigits? 2 2 (← cut?.expect? ':' t)
  let (fraction, t) := cutFraction t
  return ⟨hour, minute, second, fraction, ← offset? t⟩

/-- A text as a date, with a time if one follows. -/
def ofText? (t : Text) : Option (DateParts × Option TimeParts) := do
  let (d, rest) ← cut? t
  if rest.isEmpty then some (d, none) else return (d, some (← time? rest))

end DateParts

namespace Tag

/-- Whether a text has the form of a date.  Alone it has two digits for
the month and the day. -/
def isTimestamp (t : Text) : Bool :=
  match DateParts.ofText? t with
  | some (d, none) => d.month.length = 2 && d.day.length = 2
  | some (_, some _) => true
  | none => false

/-- The tag of a text by its form.  A line end behind it does not
count. -/
def ofPlain (text : Text) : Tag :=
  let t := match text.getLast? with
    | some '\n' => text.dropLast
    | _ => text
  if text = [] then .null
  else if boolWords.contains t then .bool
  else if isFloat t then .float
  else if isInt t then .int
  else if t = "<<".toList then .merge
  else if t ≠ [] ∧ nullWords.contains t then .null
  else if isTimestamp t then .timestamp
  else if t = ['='] then .value
  else if t = ['!'] ∨ t = ['&'] ∨ t = ['*'] then .other (standardPrefix ++ "yaml".toList)
  else .str

end Tag

end TextGrammar.Yaml
