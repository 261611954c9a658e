import WorkloadSynth.Dataset.Sample
import WorkloadSynth.Random.Shuffle

/-!
Datasets: a pool of samples in random order, dealt into three parts.

The first eight tenths train, the next tenth validates and the rest tests, each bound rounded down.
The order depends on the seed and the size of the pool alone.
-/

set_option autoImplicit false

namespace WorkloadSynth

inductive Part where
  | train
  | validation
  | test
deriving DecidableEq, Repr

namespace Part

def all : List Part := [train, validation, test]

def key : Part → String
  | train => "train"
  | validation => "val"
  | test => "test"

end Part

structure Dataset (α : Type) where
  mode : Mode
  length : Nat
  train : List (Sample α)
  validation : List (Sample α)
  test : List (Sample α)

namespace Dataset

variable {α : Type}

def part (d : Dataset α) : Part → List (Sample α)
  | .train => d.train
  | .validation => d.validation
  | .test => d.test

def samples (d : Dataset α) : List (Sample α) := d.train ++ d.validation ++ d.test

def size (d : Dataset α) : Nat := d.train.length + d.validation.length + d.test.length

def isEmpty (d : Dataset α) : Bool := d.size = 0

/-- Where training ends and where validation ends in a pool of `n`. -/
def bounds (n : Nat) : Nat × Nat := (n * 8 / 10, n * 9 / 10)

def cut {β : Type} (pool : List β) : List β × List β × List β :=
  let (trainEnd, validationEnd) := bounds pool.length
  (pool.take trainEnd, (pool.take validationEnd).drop trainEnd, pool.drop validationEnd)

def ofOrder (order : List (Sample α)) (length : Nat) (mode : Mode) : Dataset α :=
  let parts := cut order
  { mode, length, train := parts.1, validation := parts.2.1, test := parts.2.2 }

def deal (pool : Array (Sample α)) (seed : UInt64) (length : Nat) (mode : Mode) : Dataset α :=
  ofOrder (Random.shuffle (Random.Generator.ofStream seed .shuffle 0) pool).toList length mode

end Dataset

end WorkloadSynth
