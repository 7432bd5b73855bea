/-
# `TextGrammar.Modifier.English` — modifiers for English text

Functions on the text that a symbol expands to: case, the indefinite
article, plural and past tense.  They follow spelling alone, and every
text has a result.
-/
import TextGrammar.Text.Case

namespace TextGrammar.English

/-- Whether a character is a vowel, in either case. -/
def isVowel (c : Char) : Bool :=
  match Text.lower [c] with
  | [v] => v == 'a' || v == 'e' || v == 'i' || v == 'o' || v == 'u'
  | _ => false

/-! ## Case -/

/-- The text with the first character of each word in upper case, when
the character before it says whether a word starts. -/
def capitalizeFrom (start : Bool) : Text → Text
  | [] => []
  | c :: cs =>
    if !Text.isAlnum c then c :: capitalizeFrom true cs
    else if start then Text.upperChar c ++ capitalizeFrom false cs
    else c :: capitalizeFrom false cs

/-- The first character of every run of ASCII letters and digits in upper
case. -/
def capitalizeAll (t : Text) : Text := capitalizeFrom true t

/-- The first character in upper case. -/
def capitalize : Text → Text
  | [] => []
  | c :: cs => Text.upper [c] ++ cs

/-- The text in lower case. -/
def lowercase (t : Text) : Text := Text.lower t

/-! ## The indefinite article -/

/-- Whether a text sounds like `unicorn` or `unit` at its front: a `u`
with an `i` two places behind. -/
def startsLikeUnit : Text → Bool
  | u :: _ :: i :: _ => Text.lower [u] == ['u'] && Text.lower [i] == ['i']
  | _ => false

/-- Whether a text takes `an`. -/
def takesAn : Text → Bool
  | [] => false
  | c :: cs => !startsLikeUnit (c :: cs) && isVowel c

/-- The text with its indefinite article. -/
def article (t : Text) : Text := (if takesAn t then "an ".toList else "a ".toList) ++ t

/-! ## Endings -/

/-- Whether a final `y`, told what stands before it from the end, is
replaced: behind a consonant, or alone. -/
def replacesY : Text → Bool
  | [] => true
  | c :: _ => !isVowel c

/-- The plural of a word. -/
def plural (t : Text) : Text :=
  match t.reverse with
  | [] => []
  | last :: before =>
    if last = 's' ∨ last = 'h' ∨ last = 'x' then t ++ "es".toList
    else if last = 'y' ∧ replacesY before then before.reverse ++ "ies".toList
    else t ++ "s".toList

/-- The text with its first word in the plural. -/
def pluralFirst (t : Text) : Text :=
  match Text.fields ' ' t with
  | [] => []
  | word :: rest => Text.join [' '] (plural word :: rest)

/-- The past tense of a word. -/
def past (t : Text) : Text :=
  match t.reverse with
  | [] => "ed".toList
  | last :: before =>
    if last = 'e' then t ++ "d".toList
    else if last = 'y' ∧ replacesY before then before.reverse ++ "ied".toList
    else t ++ "ed".toList

end TextGrammar.English
