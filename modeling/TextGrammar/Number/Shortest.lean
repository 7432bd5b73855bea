/-
# `TextGrammar.Number.Shortest` — the shortest decimal that reads back

A finite number is written with the fewest digits that are read back as
the same number, and of those with the digits nearest to it.  The
notation is positional from `1e-4` up to below `1e16` and scientific
outside; a decimal point always shows in positional notation.
-/
import TextGrammar.Text.Basic
import TextGrammar.Number.Binary64

namespace TextGrammar.Binary64

/-! ## Digits -/

/-- Whether `num / den < 10 ^ k`. -/
def ltPowTen (num den : Nat) (k : Int) : Bool :=
  if 0 ≤ k then num < den * Nat.pow 10 k.toNat else num * Nat.pow 10 (-k).toNat < den

/-- The least `k` with `num / den < 10 ^ k`, looked for upwards from a
start that is at most `steps` below it. -/
def decadeFrom (num den : Nat) : Nat → Int → Int
  | 0, k => k
  | steps + 1, k => if ltPowTen num den k then k else decadeFrom num den steps (k + 1)

/-- The least `k` with `num / den < 10 ^ k`, for a positive quotient.
As `10 ^ 3 < 2 ^ 10` and `2 ^ 93 < 10 ^ 28` the start is at most a few
steps too low. -/
def decade (num den : Nat) : Int :=
  let e := binade num den
  decadeFrom num den 40 (if 0 ≤ e then e * 28 / 93 else e * 31 / 100 - 2)

/-- The two whole numbers next to `num / (den * 10 ^ k)`, the nearer one
first and the even one of two that are equally near. -/
def neighbours (num den : Nat) (k : Int) : Nat × Nat :=
  let (n, d) := if 0 ≤ k then (num, den * Nat.pow 10 k.toNat) else (num * Nat.pow 10 (-k).toNat, den)
  let low := n / d
  if nearest n d = low then (low, low + 1) else (low + 1, low)

/-- Looks for a decimal of `count` digits or more that is read back as
`x`, and gives its digits with the power of ten they are scaled by. -/
def shortestFrom (x : Binary64) (num den : Nat) (top : Int) : Nat → Nat → Nat × Int
  | 0, count => ((neighbours num den (top - count)).1, top - count)
  | more + 1, count =>
    let k := top - count
    let (near, far) := neighbours num den k
    if ofDecimal false near k = x then (near, k)
    else if ofDecimal false far k = x then (far, k)
    else shortestFrom x num den top more (count + 1)

/-- The digits of the shortest decimal for a positive finite number, and
the power of ten of the last digit.  Seventeen digits always suffice. -/
def shortest (m : Nat) (e : Int) : Nat × Int :=
  let (n, d) := ratio m e
  shortestFrom (.finite false m e) n.natAbs d (decade n.natAbs d) 16 1

/-! ## Notation -/

/-- Digits without the zeros at the end, and how many there were. -/
def trimZeros (digits : Text) : Text × Nat :=
  let zeros := digits.reverse.takeWhile (· == '0')
  (digits.take (digits.length - zeros.length), zeros.length)

/-- An exponent with its sign and at least two digits. -/
def exponentText (k : Int) : Text :=
  (if k < 0 then '-' else '+') :: Text.ofNatPadded 2 k.natAbs

/-- Digits with the decimal point behind the first `point` of them. -/
def positional (digits : Text) (point : Int) : Text :=
  if point ≤ 0 then
    "0.".toList ++ List.replicate (-point).toNat '0' ++ digits
  else if digits.length ≤ point.toNat then
    digits ++ List.replicate (point.toNat - digits.length) '0' ++ ".0".toList
  else digits.take point.toNat ++ '.' :: digits.drop point.toNat

/-- Digits with the decimal point behind the first one, and the power of
ten that makes up for it. -/
def scientific (digits : Text) (point : Int) : Text :=
  (match digits with
    | [] => []
    | [d] => [d]
    | d :: ds => d :: '.' :: ds) ++ 'e' :: exponentText (point - 1)

/-- A positive finite number as text. -/
def magnitudeText (m : Nat) (e : Int) : Text :=
  let (n, k) := shortest m e
  let (digits, zeros) := trimZeros (Text.ofNat n)
  let point : Int := digits.length + zeros + k
  if -4 < point ∧ point ≤ 16 then positional digits point else scientific digits point

/-- A number as text. -/
def toText : Binary64 → Text
  | .nan => "nan".toList
  | .infinity s => if s then "-inf".toList else "inf".toList
  | .finite s m e =>
    (if s then ['-'] else []) ++ (if m = 0 then "0.0".toList else magnitudeText m e)

end TextGrammar.Binary64
