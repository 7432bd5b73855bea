/-
# `TextGrammar.Value.Calendar` — dates and moments

Days of the Gregorian calendar, and moments of a day with an optional
distance from universal time.  A calendar value can be built from any
numbers; `Date.fault?` and `Moment.fault?` tell which part of it does
not exist.  A moment is written in the ISO form or as the constructor
call that gives it.
-/
import TextGrammar.Text.Basic

namespace TextGrammar

/-! ## Values -/

/-- A day. -/
structure Date where
  year : Nat
  month : Nat
  day : Nat
deriving DecidableEq, Repr

/-- A moment of a day; `offset` is its distance from universal time in
seconds, if it is known. -/
structure Moment where
  date : Date
  hour : Nat
  minute : Nat
  second : Nat
  microsecond : Nat
  offset : Option Int
deriving DecidableEq, Repr

/-- The number of days of a month. -/
def daysIn (year month : Nat) : Nat :=
  if month = 2 then
    if year % 4 = 0 ∧ (year % 100 ≠ 0 ∨ year % 400 = 0) then 29 else 28
  else if month = 4 ∨ month = 6 ∨ month = 9 ∨ month = 11 then 30
  else 31

/-- The days from the first of January of the year one. -/
def Date.ordinal (d : Date) : Nat :=
  let y := d.year - 1
  let months := (List.range (d.month - 1)).foldl (fun days m => days + daysIn d.year (m + 1)) 0
  y * 365 + y / 4 - y / 100 + y / 400 + months + (d.day - 1)

/-- The microseconds from the first of January of the year one, taken in
universal time when the offset is known. -/
def Moment.instant (m : Moment) : Int :=
  let seconds : Int := ((m.date.ordinal * 24 + m.hour) * 60 + m.minute) * 60 + m.second
  (seconds - m.offset.getD 0) * 1000000 + m.microsecond

/-- Whether two moments are the same: one instant, or one reading of the
clock where no offset is known. -/
def Moment.same (m n : Moment) : Bool :=
  m.offset.isSome == n.offset.isSome && m.instant == n.instant

/-! ## Faults -/

/-- A part of a date or a moment that does not exist. -/
inductive CalendarFault where
  | year (n : Nat)
  | month
  | day
  | hour
  | minute
  | second
  | offset (seconds : Int)
deriving DecidableEq, Repr

/-- The first part of a date that does not exist. -/
def Date.fault? (d : Date) : Option CalendarFault :=
  if d.year = 0 ∨ 9999 < d.year then some (.year d.year)
  else if d.month = 0 ∨ 12 < d.month then some .month
  else if d.day = 0 ∨ daysIn d.year d.month < d.day then some .day
  else none

/-- The first part of a moment that does not exist; the offset is looked
at before all others. -/
def Moment.fault? (m : Moment) : Option CalendarFault :=
  let offset? := m.offset.bind fun s =>
    if s ≤ -86400 ∨ 86400 ≤ s then some (CalendarFault.offset s) else none
  let clock? :=
    if 23 < m.hour then some CalendarFault.hour
    else if 59 < m.minute then some .minute
    else if 59 < m.second then some .second
    else none
  offset?.or (m.date.fault?.or clock?)

/-! ## Text -/

/-- A time span in seconds as days and the seconds of a last day, in the
form of a constructor call. -/
def spanText (seconds : Int) : Text :=
  let days := Int.fdiv seconds 86400
  let rest := Int.fmod seconds 86400
  let parts :=
    (if days = 0 then [] else ["days=".toList ++ Text.ofInt days])
      ++ (if rest = 0 then [] else ["seconds=".toList ++ Text.ofInt rest])
  "datetime.timedelta(".toList
    ++ (if parts.isEmpty then ['0'] else Text.join ", ".toList parts) ++ [')']

/-- The message for a fault. -/
def CalendarFault.message : CalendarFault → Text
  | .year n => "year ".toList ++ Text.ofNat n ++ " is out of range".toList
  | .month => "month must be in 1..12".toList
  | .day => "day is out of range for month".toList
  | .hour => "hour must be in 0..23".toList
  | .minute => "minute must be in 0..59".toList
  | .second => "second must be in 0..59".toList
  | .offset s =>
    ("offset must be a timedelta strictly between -timedelta(hours=24) and " ++
      "timedelta(hours=24), not ").toList ++ spanText s ++ ['.']

/-- The ISO form of a date. -/
def Date.iso (d : Date) : Text :=
  Text.ofNatPadded 4 d.year ++ '-' :: Text.ofNatPadded 2 d.month
    ++ '-' :: Text.ofNatPadded 2 d.day

/-- The ISO form of an offset. -/
def offsetIso (seconds : Int) : Text :=
  let n := seconds.natAbs
  (if seconds < 0 then '-' else '+') :: Text.ofNatPadded 2 (n / 3600)
    ++ ':' :: Text.ofNatPadded 2 (n / 60 % 60)
    ++ (if n % 60 = 0 then [] else ':' :: Text.ofNatPadded 2 (n % 60))

/-- The ISO form of a moment, with `mark` between the date and the time. -/
def Moment.iso (mark : Char) (m : Moment) : Text :=
  m.date.iso ++ mark :: Text.ofNatPadded 2 m.hour ++ ':' :: Text.ofNatPadded 2 m.minute
    ++ ':' :: Text.ofNatPadded 2 m.second
    ++ (if m.microsecond = 0 then [] else '.' :: Text.ofNatPadded 6 m.microsecond)
    ++ (m.offset.map offsetIso).getD []

/-- A date as the call that gives it. -/
def Date.written (d : Date) : Text :=
  "datetime.date(".toList
    ++ Text.join ", ".toList ([d.year, d.month, d.day].map Text.ofNat) ++ [')']

/-- An offset as the value that gives it. -/
def offsetWritten (seconds : Int) : Text :=
  if seconds = 0 then "datetime.timezone.utc".toList
  else "datetime.timezone(".toList ++ spanText seconds ++ [')']

/-- A moment as the call that gives it; seconds and their fraction are
left out when nothing but zeros would follow. -/
def Moment.written (m : Moment) : Text :=
  let tail :=
    if m.microsecond ≠ 0 then [m.second, m.microsecond]
    else if m.second ≠ 0 then [m.second] else []
  let numbers := [m.date.year, m.date.month, m.date.day, m.hour, m.minute] ++ tail
  "datetime.datetime(".toList ++ Text.join ", ".toList (numbers.map Text.ofNat)
    ++ (m.offset.map fun s => ", tzinfo=".toList ++ offsetWritten s).getD [] ++ [')']

/-! ## Reading the ISO form -/

/-- The number of the first `count` characters, which have to be digits,
and what follows them. -/
def readDigits? (count : Nat) (t : Text) : Option (Nat × Text) :=
  let digits := t.take count
  if digits.length = count ∧ digits.all Char.isDigit then
    some (Text.readNat 10 digits, t.drop count)
  else none

/-- What follows a character that has to come first. -/
def expect? (c : Char) : Text → Option Text
  | [] => none
  | x :: rest => if x = c then some rest else none

/-- A date at the front of a text, and what follows it. -/
def readDate? (t : Text) : Option (Date × Text) := do
  let (year, t) ← readDigits? 4 t
  let (month, t) ← readDigits? 2 (← expect? '-' t)
  let (day, t) ← readDigits? 2 (← expect? '-' t)
  return (⟨year, month, day⟩, t)

/-- A date in the ISO form. -/
def Date.ofIso? (t : Text) : Option Date :=
  match readDate? t with
  | some (d, []) => some d
  | _ => none

/-- The offset that fills a text. -/
def readOffset? (t : Text) : Option (Option Int) :=
  match t with
  | [] => some none
  | sign :: t => do
    let (hours, t) ← readDigits? 2 t
    let (minutes, t) ← readDigits? 2 (← expect? ':' t)
    let (seconds, _) ← match t with
      | [] => some (0, [])
      | _ :: t => readDigits? 2 t
    let n : Int := hours * 3600 + minutes * 60 + seconds
    return some (if sign = '-' then -n else n)

/-- A moment in the ISO form. -/
def Moment.ofIso? (t : Text) : Option Moment := do
  let (date, t) ← readDate? t
  let (hour, t) ← readDigits? 2 (t.drop 1)
  let (minute, t) ← readDigits? 2 (← expect? ':' t)
  let (second, t) ← readDigits? 2 (← expect? ':' t)
  let (microsecond, t) ← match t with
    | '.' :: t => readDigits? 6 t
    | t => some (0, t)
  return ⟨date, hour, minute, second, microsecond, ← readOffset? t⟩

end TextGrammar
