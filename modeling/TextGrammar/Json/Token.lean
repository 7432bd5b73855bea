/-
# `TextGrammar.Json.Token` — the tokens of a JSON text

A JSON text is a list of tokens, each with its place.  The list always
ends with `finish`, which stands for the end of the text or for the first
character that starts no token.  A text or an integer that cannot be read
is a token as well and carries its fault, because what is wrong at its
place depends on what was expected there.

A text has no character for half of a surrogate pair.  An escape that
writes such a half alone is read as the character of code zero.
-/
import TextGrammar.Number.Numeral
import TextGrammar.Value.Basic

namespace TextGrammar.Json

/-! ## Faults -/

/-- What is wrong at a place of a JSON text. -/
inductive Problem where
  | byteOrderMark
  | expectedValue
  | expectedKey
  | expectedColon
  | expectedComma
  | extraData
  | unterminatedText
  | controlCharacter
  | badEscape
  | badCodeEscape
deriving DecidableEq, Repr

/-- Why a JSON text has no value: a problem at a place, an integer with
too many digits, or an object with a repeated key. -/
inductive Fault where
  | at (position : Nat) (problem : Problem)
  | longInteger (digits : Nat)
  | duplicateKey (key : Text)
deriving DecidableEq, Repr

/-- The words for a problem. -/
def Problem.message : Problem → Text
  | .byteOrderMark => "Unexpected UTF-8 BOM (decode using utf-8-sig)".toList
  | .expectedValue => "Expecting value".toList
  | .expectedKey => "Expecting property name enclosed in double quotes".toList
  | .expectedColon => "Expecting ':' delimiter".toList
  | .expectedComma => "Expecting ',' delimiter".toList
  | .extraData => "Extra data".toList
  | .unterminatedText => "Unterminated string starting at".toList
  | .controlCharacter => "Invalid control character at".toList
  | .badEscape => "Invalid \\escape".toList
  | .badCodeEscape => "Invalid \\uXXXX escape".toList

/-- A place by its line, its column and its distance from the front. -/
def placeText (text : Text) (position : Nat) : Text :=
  let before := text.take position
  let column := (before.reverse.takeWhile (· != '\n')).length + 1
  "line ".toList ++ Text.ofNat (before.count '\n' + 1) ++ " column ".toList ++ Text.ofNat column
    ++ " (char ".toList ++ Text.ofNat position ++ [')']

/-- The message for a fault in a text. -/
def Fault.message (text : Text) : Fault → Text
  | .at position problem => problem.message ++ ": ".toList ++ placeText text position
  | .longInteger digits => (Numeral.IntFault.tooLong digits).message
  | .duplicateKey key => "symbol defined more than once: ".toList ++ key

/-! ## Tokens -/

/-- A token. -/
inductive Token where
  | openArray
  | closeArray
  | openObject
  | closeObject
  | comma
  | colon
  | text (t : Except Fault Text)
  | scalar (v : Except Fault Value)
  | finish
  | stray

/-- Whether a character separates tokens. -/
def isSpace (c : Char) : Bool := c == ' ' || c == '\t' || c == '\n' || c == '\r'

/-! ## Texts -/

/-- The code of four hexadecimal digits at the front. -/
def code? (t : Text) : Option Nat :=
  let digits := t.take 4
  if digits.length = 4 ∧ digits.all (Numeral.isDigitOf 16) then some (Text.readNat 16 digits)
  else none

/-- Whether a code is the first half of a pair. -/
def isHigh (n : Nat) : Bool := 0xd800 ≤ n && n ≤ 0xdbff

/-- Whether a code is the second half of a pair. -/
def isLow (n : Nat) : Bool := 0xdc00 ≤ n && n ≤ 0xdfff

/-- The code of the two halves of a pair. -/
def joinHalves (high low : Nat) : Nat := 0x10000 + (high - 0xd800) * 0x400 + (low - 0xdc00)

/-- The character of an escape of one letter. -/
def escaped? : Char → Option Char
  | '"' => some '"'
  | '\\' => some '\\'
  | '/' => some '/'
  | 'b' => some '\x08'
  | 'f' => some '\x0c'
  | 'n' => some '\n'
  | 'r' => some '\r'
  | 't' => some '\t'
  | _ => none

/-- The code that an escape stands for and its length, from the place
behind the backslash on.  Four hexadecimal digits need a character behind
them, and so do those of a second half. -/
def readEscape (at' : Nat) : Text → Except Fault (Nat × Nat)
  | 'u' :: rest =>
    match code? rest, rest.drop 4 with
    | none, _ | _, [] => .error (.at at' .badCodeEscape)
    | some code, '\\' :: 'u' :: rest' =>
      if isHigh code && 4 < rest'.length then
        match code? rest' with
        | none => .error (.at (at' + 6) .badCodeEscape)
        | some low => .ok (if isLow low then (joinHalves code low, 11) else (code, 5))
      else .ok (code, 5)
    | some code, _ => .ok (code, 5)
  | c :: _ =>
    match escaped? c with
    | some x => .ok (x.toNat, 1)
    | none => .error (.at (at' - 1) .badEscape)
  | [] => .error (.at (at' - 1) .badEscape)

/-- Puts the character of a code in front of a text. -/
def prepend (code : Nat) : Except Fault (Text × Nat) → Except Fault (Text × Nat)
  | .ok (cs, n) => .ok (Char.ofNat code :: cs, n)
  | .error f => .error f

/-- The rest of a text whose opening quote stands at `start`, from place
`at'` on: its characters and the place behind its closing quote. -/
def readText (start at' : Nat) : Text → Except Fault (Text × Nat)
  | [] => .error (.at start .unterminatedText)
  | c :: rest =>
    if c = '"' then .ok ([], at' + 1)
    else if c = '\\' then
      if rest.isEmpty then .error (.at start .unterminatedText)
      else match readEscape (at' + 1) rest with
        | .ok (code, n) => prepend code (readText start (at' + 1 + n) (rest.drop n))
        | .error f => .error f
    else if c.toNat < 0x20 then .error (.at at' .controlCharacter)
    else prepend c.toNat (readText start (at' + 1) rest)
termination_by t => t.length
decreasing_by all_goals simp only [List.length_cons, List.length_drop]; omega

/-! ## Numbers and words -/

/-- The digits at the front of a text. -/
def digits (t : Text) : Text := t.takeWhile Char.isDigit

/-- The length of the fraction at the front of a text, with its point. -/
def fractionLength : Text → Nat
  | '.' :: rest => if digits rest = [] then 0 else (digits rest).length + 1
  | _ => 0

/-- The length of the sign of a power at the front of a text. -/
def powerSignLength : Text → Nat
  | c :: _ => if c = '+' ∨ c = '-' then 1 else 0
  | [] => 0

/-- The length of the power of ten at the front of a text. -/
def powerLength : Text → Nat
  | e :: rest =>
    if e = 'e' ∨ e = 'E' then
      let sign := powerSignLength rest
      let count := (digits (rest.drop sign)).length
      if count = 0 then 0 else 1 + sign + count
    else 0
  | [] => 0

/-- The length of the sign at the front of a text. -/
def signLength : Text → Nat
  | '-' :: _ => 1
  | _ => 0

/-- The length of the whole number at the front of a text; no digits
follow a zero. -/
def wholeLength : Text → Nat
  | '0' :: _ => 1
  | t => (digits t).length

/-- The number at the front of a text and its length. -/
def number? (t : Text) : Option (Except Fault Value × Nat) :=
  let sign := signLength t
  let whole := wholeLength (t.drop sign)
  if whole = 0 then none
  else
    let fraction := fractionLength (t.drop (sign + whole))
    let power := powerLength (t.drop (sign + whole + fraction))
    let length := sign + whole + fraction + power
    if fraction = 0 ∧ power = 0 then
      some (match Numeral.readInt 10 (t.take length) with
        | .ok n => .ok (.int n)
        | .error _ => .error (.longInteger whole), length)
    else
      some (.ok (.float ((Numeral.readFloat? (t.take length)).getD .nan)), length)

/-- The words that stand for values. -/
def words : List (Text × Value) := [
  ("null".toList, .null), ("true".toList, .bool true), ("false".toList, .bool false),
  ("NaN".toList, .float .nan), ("Infinity".toList, .float (.infinity false)),
  ("-Infinity".toList, .float (.infinity true))]

/-- The word at the front of a text with its value and its length. -/
def word? (t : Text) : Option (Value × Nat) :=
  (words.find? fun (w, _) => w.isPrefixOf t).map fun (w, v) => (v, w.length)

/-! ## Texts as tokens -/

/-- The first token of a text that stands at a place, and its length; a
length of zero ends the list. -/
def first (position : Nat) : Text → Token × Nat
  | [] => (.finish, 0)
  | '[' :: _ => (.openArray, 1)
  | ']' :: _ => (.closeArray, 1)
  | '\x7b' :: _ => (.openObject, 1)
  | '\x7d' :: _ => (.closeObject, 1)
  | ',' :: _ => (.comma, 1)
  | ':' :: _ => (.colon, 1)
  | '"' :: rest =>
    match readText position (position + 1) rest with
    | .ok (t, behind) => (.text (.ok t), behind - position)
    | .error f => (.text (.error f), 0)
  | t =>
    match word? t with
    | some (v, n) => (.scalar (.ok v), n)
    | none => match number? t with
      | some (v, n) => (.scalar v, n)
      | none => (.stray, 0)

/-- The tokens from a place on, each with its place; the rounds bound
their number. -/
def tokensFrom : Nat → Nat → Text → List (Nat × Token)
  | 0, position, _ => [(position, .finish)]
  | rounds + 1, position, t =>
    let spaces := (t.takeWhile isSpace).length
    let position := position + spaces
    let (token, length) := first position (t.drop spaces)
    if length = 0 then [(position, token)]
    else (position, token) :: tokensFrom rounds (position + length) (t.drop (spaces + length))

/-- The tokens of a text.  Each but the last one takes a character. -/
def tokens (t : Text) : List (Nat × Token) := tokensFrom (t.length + 1) 0 t

end TextGrammar.Json
