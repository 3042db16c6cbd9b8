/-!
# The twister

The pseudo-random words of the 32-bit generator MT19937. A state is a block of 624 words and the number of
them that were given out; when all are, the whole block is renewed.
-/

namespace TagTemplate

structure Twister where
  words : Vector UInt32 624
  used : Nat
deriving DecidableEq

namespace Twister

/-- The word at an index, counted round the block. -/
def word (words : Vector UInt32 624) (index : Nat) : UInt32 :=
  words.get ⟨index % 624, Nat.mod_lt _ (by decide)⟩

def setWord (words : Vector UInt32 624) (index : Nat) (value : UInt32) : Vector UInt32 624 :=
  words.set (index % 624) value (Nat.mod_lt _ (by decide))

/-- How a word of the block depends on the one before it while a block is being filled. -/
def spread (previous factor : UInt32) : UInt32 :=
  (previous ^^^ (previous >>> 30)) * factor

def blockOfWord (seed : UInt32) : Vector UInt32 624 :=
  (List.range 623).foldl
    (fun words i => setWord words (i + 1) (spread (word words i) 1812433253 + UInt32.ofNat (i + 1)))
    (Vector.replicate 624 seed)

/-- Goes over the block from `index` on, for so many words; every word is mixed with the one before it,
the number of the step and its index. Behind the last word comes the second one, and the first is then a
copy of the last. -/
def sweep (mix : (old previous : UInt32) → (step index : Nat) → UInt32) :
    (count step index : Nat) → Vector UInt32 624 → Nat × Vector UInt32 624
  | 0, _, index, words => (index, words)
  | count + 1, step, index, words =>
      let words := setWord words index (mix (word words index) (word words (index - 1)) step index)
      if 624 ≤ index + 1 then sweep mix count (step + 1) 1 (setWord words 0 (word words 623))
      else sweep mix count (step + 1) (index + 1) words

/-- The block that a key leads to: the key is absorbed word by word, as often as need be, and one more
sweep lets every word depend on all of it. -/
def blockOfKey (key : Array UInt32) : Vector UInt32 624 :=
  let absorb (old previous : UInt32) (step _index : Nat) : UInt32 :=
    let place := step % key.size
    (old ^^^ spread previous 1664525) + key.getD place 0 + UInt32.ofNat place
  let settle (old previous : UInt32) (_step index : Nat) : UInt32 :=
    (old ^^^ spread previous 1566083941) - UInt32.ofNat index
  let (index, words) := sweep absorb (max 624 key.size) 0 1 (blockOfWord 19650218)
  setWord (sweep settle 623 0 index words).2 0 0x80000000

/-- The words of a number, the lowest first; zero has one word. -/
def wordsOf (n : Nat) : List UInt32 :=
  if n < 0x100000000 then [UInt32.ofNat n]
  else UInt32.ofNat (n % 0x100000000) :: wordsOf (n / 0x100000000)
termination_by n
decreasing_by exact Nat.div_lt_self (by omega) (by decide)

/-- The generator of a seed. The sign of the seed makes no difference. -/
def ofSeed (seed : Int) : Twister :=
  ⟨blockOfKey (wordsOf seed.natAbs).toArray, 624⟩

def renew (words : Vector UInt32 624) : Vector UInt32 624 :=
  (List.range 624).foldl
    (fun words i =>
      let joined := (word words i &&& 0x80000000) ||| (word words (i + 1) &&& 0x7FFFFFFF)
      let twist : UInt32 := if joined &&& 1 = 0 then 0 else 0x9908B0DF
      setWord words i (word words (i + 397) ^^^ (joined >>> 1) ^^^ twist))
    words

def temper (word : UInt32) : UInt32 :=
  let word := word ^^^ (word >>> 11)
  let word := word ^^^ ((word <<< 7) &&& 0x9D2C5680)
  let word := word ^^^ ((word <<< 15) &&& 0xEFC60000)
  word ^^^ (word >>> 18)

def next (source : Twister) : UInt32 × Twister :=
  if source.used < 624 then (temper (word source.words source.used), ⟨source.words, source.used + 1⟩)
  else
    let words := renew source.words
    (temper (word words 0), ⟨words, 1⟩)

end Twister

end TagTemplate
