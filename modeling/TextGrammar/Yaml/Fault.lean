/-
# `TextGrammar.Yaml.Fault` — why a YAML text has no value

A text can fail to be a document, which needs no further word; its parts
can fail to be values of the kind that their tag asks for; and a mapping
can repeat a key.
-/
import TextGrammar.Number.Numeral
import TextGrammar.Value.Basic
import TextGrammar.Value.Written

namespace TextGrammar.Yaml

/-- Why a text has no value. -/
inductive Fault where
  /-- The text is no document, or a part of it does not fit its tag. -/
  | malformed
  /-- A mapping has a key twice; the second one stands in this line. -/
  | repeatedKey (key : Value) (line : Nat)
  /-- A text tagged as an integer is none. -/
  | notInteger (why : Numeral.IntFault)
  /-- A text tagged as a number is none. -/
  | notFloat (t : Text)
  /-- A part of a date does not exist. -/
  | calendar (why : CalendarFault)
  /-- An escape names a code beyond the last character. -/
  | codeTooLarge
  /-- A text is tagged as a mapping of pairs. -/
  | textForPairs
  /-- A sequence is tagged as a mapping of pairs. -/
  | itemsForPairs
  /-- A text tagged as a truth value is none of the words for one. -/
  | unknownWord (t : Text)
  /-- A text tagged as a number has no digits. -/
  | noDigits
  /-- A text tagged as a date does not look like one. -/
  | notDate

/-- The message for a fault that is a matter of values; a malformed
document has none. -/
def Fault.message? : Fault → Option Text
  | .malformed => none
  | .repeatedKey key line =>
    some ("symbol defined more than once: ".toList ++ key.shown ++ " (line ".toList
      ++ Text.ofNat line ++ [')'])
  | .notInteger why => some why.message
  | .notFloat t => some ("could not convert string to float: ".toList ++ Text.quoted t)
  | .calendar why => some why.message
  | .codeTooLarge => some "chr() arg not in range(0x110000)".toList
  | .textForPairs => some "not enough values to unpack (expected 2, got 1)".toList
  | .itemsForPairs => some "cannot unpack non-iterable node".toList
  | .unknownWord t => some (Text.quoted t)
  | .noDigits => some "string index out of range".toList
  | .notDate => some "no date".toList

end TextGrammar.Yaml
