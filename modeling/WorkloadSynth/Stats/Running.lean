import WorkloadSynth.Number.Scalar

/-!
Statistics of a series that arrives value by value.

`Running` keeps the count, the mean and the sum of squared distances from it, and the extremes seen
so far; `push` brings each up to date without the earlier values.  `summary` reads off the column
that reports print.
-/

set_option autoImplicit false

namespace WorkloadSynth.Stats

structure Column (α : Type) where
  mean : α
  deviation : α
  minimum : α
  maximum : α
deriving DecidableEq, Repr

structure Running (α : Type) where
  count : Nat
  mean : α
  /-- Sum of the squared distances from the mean. -/
  squares : α
  least : Option α
  greatest : Option α

namespace Running

variable {α : Type} [Scalar α]

def empty : Running α := ⟨0, 0.0, 0.0, none, none⟩

/-- The better of what is kept and a new value, which has to be defined to count. -/
def keep (better : α → α → α) (kept : Option α) (value : α) : Option α :=
  if Scalar.IsUndefined value then kept
  else some (match kept with
    | none => value
    | some k => better k value)

def push (r : Running α) (value : α) : Running α :=
  let count := r.count + 1
  let delta := value - r.mean
  let mean := r.mean + delta / Scalar.ofNat count
  { count
    mean
    squares := r.squares + delta * (value - mean)
    least := keep Scalar.smaller r.least value
    greatest := keep Scalar.larger r.greatest value }

def ofList (values : List α) : Running α := values.foldl push empty

/-- The column of the values pushed so far; all zeros before the first.  A column without a defined
value spans from plus to minus infinity. -/
def summary (r : Running α) : Column α :=
  if r.count = 0 then ⟨0.0, 0.0, 0.0, 0.0⟩
  else
    { mean := r.mean
      deviation := Scalar.sqrt (r.squares / Scalar.ofNat r.count)
      minimum := r.least.getD (1.0 / 0.0)
      maximum := r.greatest.getD (-1.0 / 0.0) }

end Running

end WorkloadSynth.Stats
