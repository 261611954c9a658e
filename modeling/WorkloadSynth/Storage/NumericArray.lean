import WorkloadSynth.Dataset.Split

/-!
Arrays of single-precision numbers with a shape, and the arrays that a dataset is stored as.

`NumericArray.ofValues` takes the values in row-major order and refuses them if their number is not
that of the shape.  `traceArray` stacks whole traces, `stepArray` the first step of each and
`labelArray` the labels; each says how many rows it has and trusts the samples for the rest.
-/

set_option autoImplicit false

namespace WorkloadSynth

inductive ShapeFault where
  /-- The lengths of the axes, those of zero apart, have a product that cannot be counted. -/
  | overflow
  | outOfBounds
  | incompatible
deriving DecidableEq, Repr

def ShapeFault.message : ShapeFault → String
  | overflow => "ShapeError/Overflow: arithmetic overflow"
  | outOfBounds => "ShapeError/OutOfBounds: out of bounds indexing"
  | incompatible => "ShapeError/IncompatibleShape: incompatible shapes"

structure NumericArray where
  shape : List Nat
  values : List UInt32
deriving DecidableEq, Repr

namespace NumericArray

def size (shape : List Nat) : Nat := shape.foldl (· * ·) 1

/-- The size that has to be countable: that of the axes that are not empty. -/
def extent (shape : List Nat) : Nat := size (shape.filter (· ≠ 0))

def ofValues (shape : List Nat) (values : List UInt32) : Except ShapeFault NumericArray :=
  if Nat.pow 2 63 ≤ extent shape then .error .overflow
  else if values.length < size shape then .error .outOfBounds
  else if size shape < values.length then .error .incompatible
  else .ok ⟨shape, values⟩

end NumericArray

namespace Sample

def stepValues (steps : List (Usage Float)) : List UInt32 :=
  steps.flatMap fun u => u.toList.map Binary64.singleBits

def traceArray (samples : List (Sample Float)) (length : Nat) : Except ShapeFault NumericArray :=
  NumericArray.ofValues [samples.length, length, Usage.columnNames.length]
    (samples.flatMap fun s => stepValues s.trace.steps)

def stepArray (samples : List (Sample Float)) : Except ShapeFault NumericArray :=
  NumericArray.ofValues [samples.length, Usage.columnNames.length]
    (samples.flatMap fun s => stepValues (s.trace.steps.take 1))

def labelArray (samples : List (Sample Float)) : Except ShapeFault NumericArray :=
  NumericArray.ofValues [samples.length, Recommendation.columnNames.length]
    (samples.flatMap fun s => s.label.toList.map Binary64.singleBits)

end Sample

end WorkloadSynth
