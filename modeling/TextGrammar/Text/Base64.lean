/-
# `TextGrammar.Text.Base64` — bytes written in base sixty-four

Four digits of six bits write three bytes.  Characters that are no digits
are passed over.  Padding ends the data once it completes a group; a
group that is neither complete nor padded is refused.
-/
import TextGrammar.Text.Basic

namespace TextGrammar.Text.Base64

/-- The value of a digit. -/
def digit? (c : Char) : Option Nat :=
  if 'A' ≤ c ∧ c ≤ 'Z' then some (c.toNat - 65)
  else if 'a' ≤ c ∧ c ≤ 'z' then some (c.toNat - 71)
  else if '0' ≤ c ∧ c ≤ '9' then some (c.toNat + 4)
  else if c = '+' then some 62
  else if c = '/' then some 63
  else none

/-- The bytes from here on, when `count` digits of a group are read,
whose bits not yet given out are `left`, and `pads` marks of padding
stand behind them. -/
def decodeFrom (count left pads : Nat) : Text → Option (List UInt8)
  | [] => if count = 0 then some [] else none
  | '=' :: cs =>
    if 2 ≤ count then
      if 4 ≤ count + pads + 1 then some [] else decodeFrom count left (pads + 1) cs
    else decodeFrom count left pads cs
  | c :: cs =>
    match digit? c with
    | none => decodeFrom count left pads cs
    | some d =>
      match count with
      | 0 => decodeFrom 1 d 0 cs
      | 1 => (decodeFrom 2 (d % 16) 0 cs).map (UInt8.ofNat (left * 4 + d / 16) :: ·)
      | 2 => (decodeFrom 3 (d % 4) 0 cs).map (UInt8.ofNat (left * 16 + d / 4) :: ·)
      | _ => (decodeFrom 0 0 0 cs).map (UInt8.ofNat (left * 64 + d) :: ·)

/-- The bytes that a text writes. -/
def decode? (t : Text) : Option (List UInt8) := decodeFrom 0 0 0 t

end TextGrammar.Text.Base64
