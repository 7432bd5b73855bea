/-
# `TextGrammar.Text.Basic` — texts, fields, white space and decimal numerals

A text is the list of its characters, so that every function below is
structural recursion on it.  `fields` cuts a text at each occurrence of
one character and `join` writes pieces with a separator between them;
`join_fields` says that nothing is lost in between.

The characters are those of Unicode that stand for themselves.  The codes
from `d800` to `dfff`, the halves of surrogate pairs, are none, and no
text holds one.
-/

namespace TextGrammar

/-- A text, as the list of its characters. -/
abbrev Text := List Char

namespace Text

/-! ## Fields -/

/-- The pieces between the occurrences of `sep`.  There is always at
least one, possibly empty. -/
def fields (sep : Char) : Text → List Text
  | [] => [[]]
  | c :: cs =>
    if c = sep then [] :: fields sep cs
    else match fields sep cs with
      | [] => [[c]]
      | f :: fs => (c :: f) :: fs

/-- Pieces one after the other, with `sep` between neighbours. -/
def join (sep : Text) : List Text → Text
  | [] => []
  | [t] => t
  | t :: u :: rest => t ++ sep ++ join sep (u :: rest)

theorem fields_ne_nil (sep : Char) (t : Text) : fields sep t ≠ [] := by
  cases t with
  | nil => simp [fields]
  | cons c cs => simp only [fields]; split <;> (try split) <;> simp

theorem join_cons_cons (sep : Text) (c : Char) (f : Text) (fs : List Text) :
    join sep ((c :: f) :: fs) = c :: join sep (f :: fs) := by
  cases fs <;> simp [join]

/-- Cutting at a character and writing it back gives the text again. -/
theorem join_fields (sep : Char) (t : Text) : join [sep] (fields sep t) = t := by
  induction t with
  | nil => rfl
  | cons c cs ih =>
    simp only [fields]
    split
    · next h =>
      subst h
      match hf : fields c cs with
      | [] => exact absurd hf (fields_ne_nil c cs)
      | f :: fs => rw [hf] at ih; simp [join, ih]
    · match hf : fields sep cs with
      | [] => exact absurd hf (fields_ne_nil sep cs)
      | f :: fs => rw [hf] at ih; simp [join_cons_cons, ih]

/-! ## White space -/

/-- Whether a character separates words in any script: the controls from
tab to carriage return, the four information separators, and the Unicode
spaces with the line and paragraph separators. -/
def isBlank (c : Char) : Bool :=
  let n := c.toNat
  (0x09 ≤ n && n ≤ 0x0d) || (0x1c ≤ n && n ≤ 0x20) || n == 0x85 || n == 0xa0 || n == 0x1680
    || (0x2000 ≤ n && n ≤ 0x200a) || n == 0x2028 || n == 0x2029 || n == 0x202f || n == 0x205f
    || n == 0x3000

/-- The text without the white space at its two ends. -/
def strip (t : Text) : Text :=
  ((t.dropWhile isBlank).reverse.dropWhile isBlank).reverse

/-- Whether a text is empty or holds white space only. -/
def allBlank (t : Text) : Bool := t.all isBlank

/-! ## Numerals -/

/-- The decimal numeral of a natural number. -/
def ofNat (n : Nat) : Text := Nat.toDigits 10 n

/-- The decimal numeral of an integer, with `-` in front of a negative one. -/
def ofInt : Int → Text
  | .ofNat n => ofNat n
  | .negSucc n => '-' :: ofNat (n + 1)

/-- The numeral of `n` in lower-case hexadecimal, with zeros in front up
to `width` digits. -/
def ofNatHex (width n : Nat) : Text :=
  let digits := Nat.toDigits 16 n
  List.replicate (width - digits.length) '0' ++ digits

/-- The numeral of `n` with zeros in front up to `width` digits. -/
def ofNatPadded (width n : Nat) : Text :=
  let digits := ofNat n
  List.replicate (width - digits.length) '0' ++ digits

/-- The value of a character as a digit of a base up to thirty-six. -/
def digitValue? (c : Char) : Option Nat :=
  if '0' ≤ c ∧ c ≤ '9' then some (c.toNat - 48)
  else if 'a' ≤ c ∧ c ≤ 'z' then some (c.toNat - 87)
  else if 'A' ≤ c ∧ c ≤ 'Z' then some (c.toNat - 55)
  else none

/-- The number that a text of digits writes, the most significant digit
first.  Characters that are no digits count as zero. -/
def readNat (base : Nat) (digits : Text) : Nat :=
  digits.foldl (fun n c => n * base + (digitValue? c).getD 0) 0

/-! ## Order -/

/-- Whether `s` comes before or at `t` in the order of the character
codes, a text before its extensions. -/
def le : Text → Text → Bool
  | [], _ => true
  | _ :: _, [] => false
  | c :: cs, d :: ds => if c = d then le cs ds else c < d

/-- The texts in the order of `le`. -/
def sort (ts : List Text) : List Text := ts.mergeSort le

end Text

end TextGrammar
