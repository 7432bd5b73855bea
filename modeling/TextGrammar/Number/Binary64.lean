/-
# `TextGrammar.Number.Binary64` — binary numbers of double precision

A finite number is a sign, a significand and the exponent of its unit,
`significand * 2 ^ exponent`, with the significand below `2 ^ 53`; it is
at least `2 ^ 52` unless the exponent is the least one, so that every
number has one form.  Operations give the exact result rounded to the
nearest number, a tie going to the even significand.
-/

namespace TextGrammar

/-- A number of double precision. -/
inductive Binary64 where
  | nan
  | infinity (negative : Bool)
  | finite (negative : Bool) (significand : Nat) (exponent : Int)
deriving DecidableEq, Repr

namespace Binary64

/-! ## Rounding -/

/-- The integer nearest to `num / den`; a half goes to the even one. -/
def nearest (num den : Nat) : Nat :=
  let q := num / den
  let r := num % den
  if 2 * r < den then q else if den < 2 * r then q + 1 else q + q % 2

/-- Whether `2 ^ e ≤ num / den`. -/
def powLe (e : Int) (num den : Nat) : Bool :=
  if 0 ≤ e then den * Nat.pow 2 e.toNat ≤ num else den ≤ num * Nat.pow 2 (-e).toNat

/-- The greatest `e` with `2 ^ e ≤ num / den`, for a positive quotient. -/
def binade (num den : Nat) : Int :=
  let e : Int := (num.log2 : Int) - den.log2
  if powLe e num den then e else e - 1

/-- The least exponent of a unit. -/
def minExponent : Int := -1074

/-- The greatest exponent of a unit. -/
def maxExponent : Int := 971

/-- The exponent of the unit in which a positive quotient is rounded. -/
def unitExponent (num den : Nat) : Int := max (binade num den - 52) minExponent

/-- The quotient in units of `2 ^ e`, rounded. -/
def significandAt (e : Int) (num den : Nat) : Nat :=
  if 0 ≤ e then nearest num (den * Nat.pow 2 e.toNat) else nearest (num * Nat.pow 2 (-e).toNat) den

/-- A significand that was rounded up to `2 ^ 53` moves to the next
exponent, and one whose exponent is too great is infinite. -/
def settle (negative : Bool) (m : Nat) (e : Int) : Binary64 :=
  if m = Nat.pow 2 53 then
    if maxExponent < e + 1 then .infinity negative else .finite negative (Nat.pow 2 52) (e + 1)
  else if maxExponent < e then .infinity negative
  else .finite negative m e

/-- The number nearest to `num / den`, with the sign given. -/
def ofRatio (negative : Bool) (num den : Nat) : Binary64 :=
  if num = 0 then .finite negative 0 minExponent
  else
    let e := unitExponent num den
    settle negative (significandAt e num den) e

/-- The number nearest to `digits * 10 ^ power`.  Far outside the range
the power of ten is not computed. -/
def ofDecimal (negative : Bool) (digits : Nat) (power : Int) : Binary64 :=
  let size : Int := (digits.log2 : Int) * 30103 / 100000 + power
  if digits = 0 ∨ size < -400 then ofRatio negative 0 1
  else if 400 < size then .infinity negative
  else if 0 ≤ power then ofRatio negative (digits * Nat.pow 10 power.toNat) 1
  else ofRatio negative digits (Nat.pow 10 (-power).toNat)

/-- The number nearest to an integer. -/
def ofInt (n : Int) : Binary64 := ofRatio (n < 0) n.natAbs 1

/-! ## Exact values -/

/-- The signed significand. -/
def signed (negative : Bool) (m : Nat) : Int := if negative then -(m : Int) else m

/-- `m * 2 ^ e` as a fraction in which only the numerator has a sign. -/
def ratio (m : Int) (e : Int) : Int × Nat :=
  if 0 ≤ e then (m * Nat.pow 2 e.toNat, 1) else (m, Nat.pow 2 (-e).toNat)

/-- The exact value of a finite number as a fraction. -/
def ratio? : Binary64 → Option (Int × Nat)
  | .finite s m e => some (ratio (signed s m) e)
  | _ => none

/-- The greatest integer that is not above a finite number. -/
def floor? : Binary64 → Option Int
  | .finite s m e => let (n, d) := ratio (signed s m) e; some (Int.fdiv n d)
  | _ => none

/-- The integer that a finite number equals, if there is one. -/
def int? : Binary64 → Option Int
  | .finite s m e =>
    let (n, d) := ratio (signed s m) e
    if Int.fmod n d = 0 then some (Int.fdiv n d) else none
  | _ => none

/-! ## Arithmetic -/

/-- The number with the other sign. -/
def neg : Binary64 → Binary64
  | .nan => .nan
  | .infinity s => .infinity !s
  | .finite s m e => .finite (!s) m e

/-- The product with a natural number. -/
def mulNat (x : Binary64) (n : Nat) : Binary64 :=
  match x with
  | .nan => .nan
  | .infinity s => if n = 0 then .nan else .infinity s
  | .finite s m e =>
    let (k, d) := ratio (m * n : Nat) e
    ofRatio s k.natAbs d

/-- The sum.  Two opposite numbers give zero without a sign. -/
def add : Binary64 → Binary64 → Binary64
  | .nan, _ => .nan
  | _, .nan => .nan
  | .infinity s, .infinity s' => if s = s' then .infinity s else .nan
  | .infinity s, _ => .infinity s
  | _, .infinity s => .infinity s
  | .finite s m e, .finite s' m' e' =>
    let (n, d) := ratio (signed s m) e
    let (n', d') := ratio (signed s' m') e'
    let sum := n * d' + n' * d
    ofRatio (if sum = 0 then s && s' else sum < 0) sum.natAbs (d * d')

end Binary64

end TextGrammar
