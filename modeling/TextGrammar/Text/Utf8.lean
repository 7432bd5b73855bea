/-
# `TextGrammar.Text.Utf8` — bytes and line ends of a text file

Decoding is strict: the first byte sequence that is no character is the
fault of the whole file, with its place and reason.  A decoded file has
one kind of line end, so that carriage returns become line feeds.
-/
import TextGrammar.Text.Basic

namespace TextGrammar.Text.Utf8

/-! ## Faults -/

/-- Why bytes are no text. -/
inductive Reason where
  | invalidStart
  | invalidContinuation
  | unexpectedEnd
deriving DecidableEq, Repr

/-- The bytes at fault: the first of them, its place and how many there
are. -/
structure Fault where
  byte : UInt8
  position : Nat
  length : Nat
  reason : Reason
deriving DecidableEq, Repr

/-- The words for a reason. -/
def Reason.message : Reason → Text
  | .invalidStart => "invalid start byte".toList
  | .invalidContinuation => "invalid continuation byte".toList
  | .unexpectedEnd => "unexpected end of data".toList

/-- The message for a fault.  A single byte is shown, several are given
by their places. -/
def Fault.message (f : Fault) : Text :=
  "'utf-8' codec can't decode ".toList
    ++ (if f.length = 1 then
        "byte 0x".toList ++ ofNatHex 2 f.byte.toNat ++ " in position ".toList ++ ofNat f.position
      else
        "bytes in position ".toList ++ ofNat f.position ++ ['-']
          ++ ofNat (f.position + f.length - 1))
    ++ ": ".toList ++ f.reason.message

/-! ## Decoding -/

/-- How many bytes follow a leading byte, and the range that the first
of them has to lie in.  The narrow ranges leave out the codes that have
a shorter form, the surrogates and what lies beyond the last code. -/
def continuation? (b : UInt8) : Option (Nat × UInt8 × UInt8) :=
  if 0xc2 ≤ b ∧ b ≤ 0xdf then some (1, 0x80, 0xbf)
  else if b = 0xe0 then some (2, 0xa0, 0xbf)
  else if b = 0xed then some (2, 0x80, 0x9f)
  else if 0xe1 ≤ b ∧ b ≤ 0xef then some (2, 0x80, 0xbf)
  else if b = 0xf0 then some (3, 0x90, 0xbf)
  else if 0xf1 ≤ b ∧ b ≤ 0xf3 then some (3, 0x80, 0xbf)
  else if b = 0xf4 then some (3, 0x80, 0x8f)
  else none

/-- Reads the bytes that follow a leading byte: the code they complete,
or how many of them were right and what is wrong with the next. -/
def follow (code : Nat) (low high : UInt8) : Nat → List UInt8 → Except (Nat × Reason) Nat
  | 0, _ => .ok code
  | _ + 1, [] => .error (0, .unexpectedEnd)
  | n + 1, b :: bs =>
    if low ≤ b ∧ b ≤ high then
      match follow (code * 64 + (b.toNat - 0x80)) 0x80 0xbf n bs with
      | .ok c => .ok c
      | .error (m, r) => .error (m + 1, r)
    else .error (0, .invalidContinuation)

/-- The bits of the code that a leading byte holds. -/
def leadingBits (b : UInt8) (n : Nat) : Nat := b.toNat % Nat.pow 2 (6 - n)

/-- The text of the bytes that start at a place. -/
def decodeFrom (position : Nat) : List UInt8 → Except Fault Text
  | [] => .ok []
  | b :: bs =>
    if b < 0x80 then return Char.ofNat b.toNat :: (← decodeFrom (position + 1) bs)
    else match continuation? b with
      | none => .error ⟨b, position, 1, .invalidStart⟩
      | some (n, low, high) =>
        match follow (leadingBits b n) low high n bs with
        | .error (m, reason) => .error ⟨b, position, m + 1, reason⟩
        | .ok code => do
          return Char.ofNat code :: (← decodeFrom (position + n + 1) (bs.drop n))
termination_by bs => bs.length
decreasing_by all_goals simp only [List.length_cons, List.length_drop]; omega

/-- The text of all bytes of a file. -/
def decode (bytes : List UInt8) : Except Fault Text := decodeFrom 0 bytes

/-! ## Encoding -/

/-- The bytes of one character. -/
def encodeChar (c : Char) : List UInt8 :=
  let n := c.toNat
  let tail (k : Nat) : UInt8 := UInt8.ofNat (0x80 + n / Nat.pow 64 k % 64)
  if n < 0x80 then [UInt8.ofNat n]
  else if n < 0x800 then [UInt8.ofNat (0xc0 + n / 64), tail 0]
  else if n < 0x10000 then [UInt8.ofNat (0xe0 + n / 0x1000), tail 1, tail 0]
  else [UInt8.ofNat (0xf0 + n / 0x40000), tail 2, tail 1, tail 0]

/-- The bytes of a text. -/
def encode (t : Text) : List UInt8 := t.flatMap encodeChar

/-! ## Line ends -/

/-- The text with every carriage return, or carriage return and line
feed, as one line feed. -/
def unifyLines : Text → Text
  | '\r' :: '\n' :: cs => '\n' :: unifyLines cs
  | '\r' :: cs => '\n' :: unifyLines cs
  | c :: cs => c :: unifyLines cs
  | [] => []

end TextGrammar.Text.Utf8
