/-
# `TextGrammar.Random.Seed` — generators from seeds

A seed is a number or a text.  A number counts by its magnitude; a text
is joined with its digest, so that texts that differ little give
generators that differ much, and read as one number.
-/
import TextGrammar.Text.Utf8
import TextGrammar.Digest.Sha512
import TextGrammar.Random.Twister

namespace TextGrammar

/-- What a generator is set up from. -/
inductive Seed where
  | number (n : Int)
  | text (t : Text)
deriving DecidableEq, Repr

namespace Seed

/-- The number that bytes write, the most significant first. -/
def readBytes (bytes : List UInt8) : Nat := bytes.foldl (fun n b => n * 256 + b.toNat) 0

/-- The number a seed stands for. -/
def magnitude : Seed → Nat
  | .number n => n.natAbs
  | .text t =>
    let bytes := Text.Utf8.encode t
    readBytes (bytes ++ Sha512.digest bytes)

/-- The number in words of 32 bits, the least significant first; none
for zero. -/
def wordsOf (n : Nat) : List UInt32 :=
  if h : n = 0 then [] else UInt32.ofNat n :: wordsOf (n / 0x100000000)
termination_by n
decreasing_by omega

/-- The key of a seed; it has at least one word. -/
def key (s : Seed) : Array UInt32 :=
  match wordsOf s.magnitude with
  | [] => #[0]
  | ws => ws.toArray

/-- The generator of a seed. -/
def generator (s : Seed) : Twister := .ofKey s.key

end Seed

end TextGrammar
