import WorkloadSynth.Random.Seed

/-!
A permuted congruential generator with 128 bits of state and 64 bits of output.

The state follows a linear recurrence modulo `2 ^ 128`; an output word folds the two halves of the
new state together and rotates the result by the state's top six bits.  A generator is seeded by
filling state and increment from a small 32-bit generator of the same family.
-/

set_option autoImplicit false

namespace WorkloadSynth.Random

structure Generator where
  state : BitVec 128
  increment : BitVec 128
deriving DecidableEq, Repr

def rotateRight64 (x n : UInt64) : UInt64 := (x >>> n) ||| (x <<< (64 - n))

def rotateRight32 (x n : UInt32) : UInt32 := (x >>> n) ||| (x <<< (32 - n))

namespace Generator

def multiplier : BitVec 128 := 0x2360ed051fc65da44385df649fccf645

def advance (g : Generator) : Generator :=
  { g with state := g.state * multiplier + g.increment }

def output (state : BitVec 128) : UInt64 :=
  let n := state.toNat
  rotateRight64 (UInt64.ofNat (n >>> 64) ^^^ UInt64.ofNat n) (UInt64.ofNat (n >>> 122))

def nextWord (g : Generator) : UInt64 × Generator :=
  let g := g.advance
  (output g.state, g)

def nextHalfWord (g : Generator) : UInt32 × Generator :=
  let (word, g) := g.nextWord
  (word.toUInt32, g)

def seedWords : (count : Nat) → UInt64 → List UInt32
  | 0, _ => []
  | count + 1, s =>
    let s := s * 6364136223846793005 + 11634580027462260723
    let folded := (((s >>> 18) ^^^ s) >>> 27).toUInt32
    rotateRight32 folded (s >>> 59).toUInt32 :: seedWords count s

def joinWords (words : List UInt32) : Nat := words.foldr (fun w n => n * Nat.pow 2 32 + w.toNat) 0

def ofSeed (seed : UInt64) : Generator :=
  let words := seedWords 8 seed
  let state := BitVec.ofNat 128 (joinWords (words.take 4))
  let increment := BitVec.ofNat 128 (joinWords (words.drop 4)) ||| 1
  advance { state := state + increment, increment }

def ofStream (seed : UInt64) (purpose : Purpose) (index : UInt64) : Generator :=
  ofSeed (streamSeed seed purpose index)

end Generator

end WorkloadSynth.Random
