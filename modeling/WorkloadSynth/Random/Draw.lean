import WorkloadSynth.Number.Binary64
import WorkloadSynth.Random.Generator
import WorkloadSynth.Random.Layers
import WorkloadSynth.Workload.Noise

/-!
Draws from a generator: fractions, numbers below a bound, numbers in an interval, normal deviates,
choices from a list.

Several draws reject a candidate and try again.  They stop after `attempts` misses, which no run
will see (each candidate is accepted with probability a half or more), and then answer with a value
that is in range all the same.
-/

set_option autoImplicit false

namespace WorkloadSynth.Random

/-- How many candidates a draw looks at before it settles for its fallback. -/
def attempts : Nat := 512

namespace Generator

def fraction (g : Generator) : Float × Generator :=
  let (word, g) := g.nextWord
  ((word >>> 11).toFloat * Binary64.powerOfTwo (-53), g)

def oneToTwo (word : UInt64) : Float := Float.ofBits ((word >>> 12) ||| 0x3ff0000000000000)

def openFraction (g : Generator) : Float × Generator :=
  let (word, g) := g.nextWord
  (oneToTwo word - Float.ofBits 0x3fefffffffffffff, g)

def scaleDown (width bound candidate : Nat) : Nat × Nat :=
  let product := candidate * bound
  (product / Nat.pow 2 width, product % Nat.pow 2 width)

/-- The greatest remainder that is accepted: the bound, shifted up as far as it goes, less one. -/
def acceptance (width bound : Nat) : Nat := bound * Nat.pow 2 (width - 1 - bound.log2) - 1

def belowFrom (width bound : Nat) (next : Generator → Nat × Generator) :
    (tries : Nat) → Generator → Nat × Generator
  | 0, g => (0, g)
  | tries + 1, g =>
    let (candidate, g) := next g
    let (answer, rest) := scaleDown width bound candidate
    if rest ≤ acceptance width bound then (answer, g) else belowFrom width bound next tries g

def below (bound : Nat) (g : Generator) : Nat × Generator :=
  belowFrom 64 bound (fun g => let (w, g) := g.nextWord; (w.toNat, g)) attempts g

def belowHalf (bound : Nat) (g : Generator) : Nat × Generator :=
  belowFrom 32 bound (fun g => let (w, g) := g.nextHalfWord; (w.toNat, g)) attempts g

/-- A position below `bound`: half words are spent on it unless the bound is too large for one. -/
def belowPosition (bound : Nat) (g : Generator) : Nat × Generator :=
  if bound < Nat.pow 2 32 then g.belowHalf bound else g.below bound

def betweenFrom (low high : Float) : (tries : Nat) → Generator → Float × Generator
  | 0, g => (low, g)
  | tries + 1, g =>
    let (word, g) := g.nextWord
    let x := (oneToTwo word - 1.0) * (high - low) + low
    if x < high then (x, g) else betweenFrom low high tries g

def between (low high : Float) (g : Generator) : Float × Generator :=
  betweenFrom low high attempts g

def choose? {β : Type} (list : List β) (g : Generator) : Option (β × Generator) :=
  let drawn := g.below list.length
  list[drawn.1]?.map fun x => (x, drawn.2)

def logarithm (x : Float) : Float :=
  let l := x.log
  if l ≤ 0.0 then l else 0.0

def tailFrom (negative : Bool) : (tries : Nat) → Generator → Float × Generator
  | 0, g => (if negative then -Ziggurat.tailStart else Ziggurat.tailStart, g)
  | tries + 1, g =>
    let (a, g) := g.openFraction
    let (b, g) := g.openFraction
    let x := logarithm a / Ziggurat.tailStart
    let y := logarithm b
    if -2.0 * y < x * x then tailFrom negative tries g
    else (if negative then x - Ziggurat.tailStart else Ziggurat.tailStart - x, g)

/-- A standard normal deviate: a point in a layer, taken at once if it lies under the layer above,
otherwise tested against the curve or, at the base, replaced by one from the tail. -/
def normalFrom : (tries : Nat) → Generator → Float × Generator
  | 0, g => (0.0, g)
  | tries + 1, g =>
    let (word, g) := g.nextWord
    let layer := (word &&& 0xff).toNat
    let u := Float.ofBits ((word >>> 12) ||| 0x4000000000000000) - 3.0
    let x := u * Ziggurat.edge layer
    if x.abs < Ziggurat.edge (layer + 1) then (x, g)
    else if layer = 0 then tailFrom (u < 0.0) attempts g
    else
      let (v, g) := g.fraction
      let low := Ziggurat.height (layer + 1)
      if low + (Ziggurat.height layer - low) * v < (-x * x / 2.0).exp then (x, g)
      else normalFrom tries g

def normal (g : Generator) : Float × Generator := normalFrom attempts g

def source : NoiseSource Generator Float where
  normal spread g := let drawn := g.normal; (drawn.1 * spread, drawn.2)
  uniform low high g := let drawn := g.fraction; (low + (high - low) * drawn.1, drawn.2)

end Generator

end WorkloadSynth.Random
