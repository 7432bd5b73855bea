/-
# `TextGrammar.Number.Numeral` — reading numbers from texts

Numerals as people write them: white space around, a sign, digits of
any script with single underscores between them.  An integer may stand
in another base and then carry the mark of that base (`0x`); a decimal
fraction may have a point and a power of ten, or be one of the words for
infinity and not-a-number.
-/
import TextGrammar.Text.Basic
import TextGrammar.Text.Quoted
import TextGrammar.Number.Binary64

namespace TextGrammar.Numeral

/-! ## Digits -/

/-- The codes of the zeros of all scripts with decimal digits; the other
nine digits follow each. -/
def zeros : List Nat := [
  0x30, 0x660, 0x6f0, 0x7c0, 0x966, 0x9e6, 0xa66, 0xae6, 0xb66, 0xbe6, 0xc66, 0xce6, 0xd66, 0xde6,
  0xe50, 0xed0, 0xf20, 0x1040, 0x1090, 0x17e0, 0x1810, 0x1946, 0x19d0, 0x1a80, 0x1a90, 0x1b50,
  0x1bb0, 0x1c40, 0x1c50, 0xa620, 0xa8d0, 0xa900, 0xa9d0, 0xa9f0, 0xaa50, 0xabf0, 0xff10, 0x104a0,
  0x10d30, 0x11066, 0x110f0, 0x11136, 0x111d0, 0x112f0, 0x11450, 0x114d0, 0x11650, 0x116c0,
  0x11730, 0x118e0, 0x11950, 0x11c50, 0x11d50, 0x11da0, 0x16a60, 0x16ac0, 0x16b50, 0x1d7ce,
  0x1d7d8, 0x1d7e2, 0x1d7ec, 0x1d7f6, 0x1e140, 0x1e2f0, 0x1e950, 0x1fbf0]

/-- A digit of any script as an ASCII digit; other characters stay. -/
def asciiDigit (c : Char) : Char :=
  match zeros.find? fun z => z ≤ c.toNat && c.toNat < z + 10 with
  | some z => Char.ofNat (48 + (c.toNat - z))
  | none => c

/-- Whether a character is a digit of the base. -/
def isDigitOf (base : Nat) (c : Char) : Bool :=
  match Text.digitValue? c with
  | some d => d < base
  | none => false

/-- The digits of a text in which single underscores may stand between
two digits, and nothing else. -/
def digitsOf (base : Nat) : Text → Option Text
  | [] => none
  | [c] => if isDigitOf base c then some [c] else none
  | c :: '_' :: rest => if isDigitOf base c then (digitsOf base rest).map (c :: ·) else none
  | c :: rest => if isDigitOf base c then (digitsOf base rest).map (c :: ·) else none

/-- A sign at the front of a text: whether it is `-`, and the rest. -/
def cutSign : Text → Bool × Text
  | '-' :: rest => (true, rest)
  | '+' :: rest => (false, rest)
  | t => (false, t)

/-! ## Integers -/

/-- The letter that marks a base behind a leading zero. -/
def baseMark? : Nat → Option Char
  | 2 => some 'b'
  | 8 => some 'o'
  | 16 => some 'x'
  | _ => none

/-- A text without the mark of its base; an underscore may follow the
mark. -/
def cutBaseMark (base : Nat) (t : Text) : Text :=
  match baseMark? base, t with
  | some mark, '0' :: c :: rest =>
    if c = mark ∨ c = Char.ofNat (mark.toNat - 32) then
      match rest with
      | '_' :: rest' => rest'
      | _ => rest
    else t
  | _, _ => t

/-- The most digits a decimal integer may be read from. -/
def maxDecimalDigits : Nat := 4300

/-- Why a text is no integer. -/
inductive IntFault where
  | malformed (base : Nat) (text : Text)
  | tooLong (digits : Nat)
deriving DecidableEq, Repr

/-- The message for a fault. -/
def IntFault.message : IntFault → Text
  | .malformed base text =>
    "invalid literal for int() with base ".toList ++ Text.ofNat base ++ ": ".toList
      ++ Text.quoted text
  | .tooLong digits =>
    "Exceeds the limit (4300 digits) for integer string conversion: value has ".toList
      ++ Text.ofNat digits
      ++ " digits; use sys.set_int_max_str_digits() to increase the limit".toList

/-- The integer that a text writes in a base. -/
def readInt (base : Nat) (t : Text) : Except IntFault Int :=
  let (negative, body) := cutSign ((Text.strip t).map asciiDigit)
  match digitsOf base (cutBaseMark base body) with
  | none => .error (.malformed base t)
  | some digits =>
    if base = 10 ∧ maxDecimalDigits < digits.length then .error (.tooLong digits.length)
    else
      let n : Int := Text.readNat base digits
      .ok (if negative then -n else n)

/-! ## Decimal fractions -/

/-- The parts of a decimal: digits before the point, digits behind it
and the power of ten. -/
structure Decimal where
  whole : Text
  fraction : Text
  power : Int
deriving DecidableEq, Repr

/-- The number of double precision nearest to a decimal. -/
def Decimal.value (negative : Bool) (d : Decimal) : Binary64 :=
  Binary64.ofDecimal negative (Text.readNat 10 (d.whole ++ d.fraction))
    (d.power - d.fraction.length)

/-- Digits that may be missing. -/
def optionalDigits (t : Text) : Option Text :=
  if t.isEmpty then some [] else digitsOf 10 t

/-- The decimal that a text without white space and sign writes. -/
def readDecimal? (t : Text) : Option Decimal := do
  let mantissa := t.takeWhile fun c => c != 'e' && c != 'E'
  let power ← match t.drop mantissa.length with
    | [] => some (0 : Int)
    | _ :: e =>
      let (negative, digits) := cutSign e
      let n : Int := Text.readNat 10 (← digitsOf 10 digits)
      some (if negative then -n else n)
  let whole := mantissa.takeWhile (· != '.')
  let fraction := (mantissa.drop whole.length).drop 1
  if whole.isEmpty && fraction.isEmpty then none
  else return ⟨← optionalDigits whole, ← optionalDigits fraction, power⟩

/-- The number of double precision that a text writes. -/
def readFloat? (t : Text) : Option Binary64 :=
  let (negative, body) := cutSign ((Text.strip t).map asciiDigit)
  let word := body.map fun c => if 'A' ≤ c ∧ c ≤ 'Z' then Char.ofNat (c.toNat + 32) else c
  if word = "inf".toList ∨ word = "infinity".toList then some (.infinity negative)
  else if word = "nan".toList then some .nan
  else (readDecimal? body).map (·.value negative)

end TextGrammar.Numeral
