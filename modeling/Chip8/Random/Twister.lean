import Chip8.Random.Source

/-!
# The Mersenne twister

MT19937: a state of 624 words of 32 bits. A seed of any size is cut into words, the least
significant first, and stirred into the state. Each output is a state word after tempering; when
all words are used up the state is renewed.

A random byte takes the top nine bits of an output and tries again while they exceed 255.
-/

namespace Chip8

/-- A twister between two outputs. -/
structure Twister where
  words : Vector UInt32 624
  -- How many of them have been given out.
  used : Nat
deriving DecidableEq, Repr

namespace Twister

/-- Mixes a word with its own high bits. -/
def folded (word : UInt32) : UInt32 :=
  word ^^^ (word >>> 30)

/-- Fills the words after `i` from the word at `i`, `count` of them. -/
def fill : (count : Nat) → (i : Fin 624) → Vector UInt32 624 → Vector UInt32 624
  | 0, _, words => words
  | count + 1, i, words =>
    let word := 1812433253 * folded words[i] + UInt32.ofNat (i.val + 1)
    fill count (i + 1) (words.set (i + 1).val word)

/-- The state that grows from one word. -/
def ofWord (seed : UInt32) : Vector UInt32 624 :=
  fill 623 0 ((Vector.replicate 624 0).set 0 seed)

/-- The place after `i` in a pass that leaves out the first word, with the words made ready for
it: after the last word the first takes its value and the pass continues at the second. -/
def advance (i : Fin 624) (words : Vector UInt32 624) : Fin 624 × Vector UInt32 624 :=
  if i.val = 623 then (1, words.set 0 words[i]) else (i + 1, words)

/-- Stirs key words into the state, `count` steps of a pass; `rest` is what is left of the key in
this round and `j` the place of its first word. -/
def stirKey (key : List UInt32) :
    (count : Nat) → (i : Fin 624) → (j : Nat) → (rest : List UInt32) → Vector UInt32 624 →
      Fin 624 × Vector UInt32 624
  | 0, i, _, _, words => (i, words)
  | count + 1, i, j, rest, words =>
    let (piece, rest) := match rest with
      | piece :: rest => (piece, rest)
      | [] => (0, [])
    let word := (words[i] ^^^ folded words[i - 1] * 1664525) + piece + UInt32.ofNat j
    let (i, words) := advance i (words.set i.val word)
    if rest.isEmpty then stirKey key count i 0 key words
    else stirKey key count i (j + 1) rest words

/-- A second pass, which takes the place numbers away, `count` steps of it. -/
def stirPlaces : (count : Nat) → (i : Fin 624) → Vector UInt32 624 → Vector UInt32 624
  | 0, _, words => words
  | count + 1, i, words =>
    let word := (words[i] ^^^ folded words[i - 1] * 1566083941) - UInt32.ofNat i.val
    let (i, words) := advance i (words.set i.val word)
    stirPlaces count i words

/-- A number cut into words, the least significant first; zero is one word. -/
def pieces (n : Nat) : List UInt32 :=
  if n < 4294967296 then [UInt32.ofNat n]
  else UInt32.ofNat (n % 4294967296) :: pieces (n / 4294967296)
termination_by n

/-- The twister of a seed, whose sign does not count. -/
def ofSeed (seed : Int) : Twister :=
  let key := pieces seed.natAbs
  let (i, words) := stirKey key (max 624 key.length) 1 0 key (ofWord 19650218)
  { words := (stirPlaces 623 i words).set 0 0x80000000, used := 624 }

/-- Renews the state words from place `i` on, `count` of them. -/
def renew : (count : Nat) → (i : Fin 624) → Vector UInt32 624 → Vector UInt32 624
  | 0, _, words => words
  | count + 1, i, words =>
    -- All places are modulo 624, so near the end words are taken that were renewed already.
    let mixed := (words[i] &&& 0x80000000) ||| (words[i + 1] &&& 0x7fffffff)
    let twist : UInt32 := if mixed &&& 1 = 0 then 0 else 0x9908b0df
    renew count (i + 1) (words.set i.val (words[i + 397] ^^^ (mixed >>> 1) ^^^ twist))

/-- Spreads the bits of a state word over an output. -/
def temper (word : UInt32) : UInt32 :=
  let word := word ^^^ (word >>> 11)
  let word := word ^^^ ((word <<< 7) &&& 0x9d2c5680)
  let word := word ^^^ ((word <<< 15) &&& 0xefc60000)
  word ^^^ (word >>> 18)

/-- The next output. -/
def output (t : Twister) : UInt32 × Twister :=
  if h : t.used < 624 then
    (temper t.words[t.used], { t with used := t.used + 1 })
  else
    let words := renew 624 0 t.words
    (temper words[0], { words, used := 1 })

/-- The next byte, in at most `tries` further tries. -/
def drawWithin : (tries : Nat) → Twister → UInt8 × Twister
  | 0, t =>
    let (word, t) := t.output
    ((word >>> 23).toUInt8, t)
  | tries + 1, t =>
    let (word, t) := t.output
    let top := word >>> 23
    if top < 256 then (top.toUInt8, t) else drawWithin tries t

/-- The next byte. Every second output qualifies on average, so the bound on the tries is out of
reach: it is longer than the run of equal bits that the state can hold. -/
def draw (t : Twister) : UInt8 × Twister :=
  t.drawWithin 20000

instance : RandomSource Twister where
  draw := draw

end Twister

/-- The sources that a host may choose from. -/
inductive Generator
  | replay (source : Replay)
  | twister (source : Twister)
deriving DecidableEq, Repr

namespace Generator

/-- The generator of a seed. -/
def ofSeed (seed : Int) : Generator :=
  .twister (.ofSeed seed)

/-- The generator that repeats a list. -/
def ofInts (values : List Int) : Generator :=
  .replay (.ofInts values)

/-- The next byte of the chosen source. -/
def draw? : Generator → Except SourceError (UInt8 × Generator)
  | .replay source => do
    let (byte, source) ← source.draw?
    return (byte, .replay source)
  | .twister source => let (byte, source) := source.draw; .ok (byte, .twister source)

instance : ByteSource Generator where
  draw? := draw?

end Generator

end Chip8
