/-
# `TextGrammar.Random.Twister` — the Mersenne Twister

The generator MT19937 with 624 words of 32 bits.  It is set up from a
key of any number of words; a number in `[0, 1)` takes two outputs and
has 53 bits.
-/
import TextGrammar.Random.Source

namespace TextGrammar

/-- The words of the generator, and the place of the next one to give
out. -/
structure Twister where
  words : Array UInt32
  index : Nat

namespace Twister

/-- The number of words. -/
def size : Nat := 624

/-! ## Setting up -/

/-- The word before place `i` with its high bits mixed into the low
ones. -/
def mixed (ws : Array UInt32) (i : Nat) : UInt32 :=
  let w := ws.getD (i - 1) 0
  w ^^^ w >>> 30

/-- The words grown from a single number. -/
def grow (start : UInt32) : Array UInt32 :=
  (List.range (size - 1)).foldl
    (fun ws i => ws.push (1812433253 * mixed ws (i + 1) + UInt32.ofNat (i + 1))) #[start]

/-- Moves to the next place.  Behind the last place comes place one, and
the first word becomes the last one. -/
def nextPlace (ws : Array UInt32) (i : Nat) : Array UInt32 × Nat :=
  if i + 1 < size then (ws, i + 1) else (ws.setIfInBounds 0 (ws.getD (size - 1) 0), 1)

/-- Mixes the key into the words, one word of the key a time. -/
def mixKey (key : Array UInt32) : Nat → Nat → Nat → Array UInt32 → Array UInt32 × Nat
  | 0, i, _, ws => (ws, i)
  | more + 1, i, j, ws =>
    let w := (ws.getD i 0 ^^^ mixed ws i * 1664525) + key.getD j 0 + UInt32.ofNat j
    let (ws, i) := nextPlace (ws.setIfInBounds i w) i
    mixKey key more i (if j + 1 < key.size then j + 1 else 0) ws

/-- Mixes the places into the words. -/
def mixPlaces : Nat → Nat → Array UInt32 → Array UInt32
  | 0, _, ws => ws
  | more + 1, i, ws =>
    let w := (ws.getD i 0 ^^^ mixed ws i * 1566083941) - UInt32.ofNat i
    let (ws, i) := nextPlace (ws.setIfInBounds i w) i
    mixPlaces more i ws

/-- The generator for a key. -/
def ofKey (key : Array UInt32) : Twister :=
  let (ws, i) := mixKey key (max size key.size) 1 0 (grow 19650218)
  ⟨(mixPlaces (size - 1) i ws).setIfInBounds 0 0x80000000, size⟩

/-! ## Drawing -/

/-- The new word at place `i`. -/
def twistAt (ws : Array UInt32) (i : Nat) : UInt32 :=
  let y := (ws.getD i 0 &&& 0x80000000) ||| (ws.getD ((i + 1) % size) 0 &&& 0x7fffffff)
  ws.getD ((i + 397) % size) 0 ^^^ y >>> 1 ^^^ (if y &&& 1 = 1 then 0x9908b0df else 0)

/-- All words renewed in order; later ones see the earlier ones renewed. -/
def twist (ws : Array UInt32) : Array UInt32 :=
  (List.range size).foldl (fun ws i => ws.setIfInBounds i (twistAt ws i)) ws

/-- Spreads the bits of a word before it is given out. -/
def temper (y : UInt32) : UInt32 :=
  let y := y ^^^ y >>> 11
  let y := y ^^^ (y <<< 7 &&& 0x9d2c5680)
  let y := y ^^^ (y <<< 15 &&& 0xefc60000)
  y ^^^ y >>> 18

/-- The next output word. -/
def nextWord (g : Twister) : UInt32 × Twister :=
  let g := if g.index < size then g else ⟨twist g.words, 0⟩
  (temper (g.words.getD g.index 0), { g with index := g.index + 1 })

/-- The next number of 53 bits. -/
def nextBits (g : Twister) : Nat × Twister :=
  let (a, g) := g.nextWord
  let (b, g) := g.nextWord
  ((a >>> 5).toNat * 67108864 + (b >>> 6).toNat, g)

/-- The generator as a source of numbers in `[0, 1)`. -/
def draw : Source Twister := fun g =>
  let (n, g) := g.nextBits
  (.ofRatio false n (Nat.pow 2 53), g)

end Twister

end TextGrammar
