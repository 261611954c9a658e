import WorkloadSynth.Number.Scalar

/-!
Statistics of a series that is at hand as a whole: mean, population standard deviation, largest
value, and how stable the series is.  Short series have their own answers: zero for the mean and
the maximum of no values, zero for the deviation of fewer than two.
-/

set_option autoImplicit false

namespace WorkloadSynth.Stats

variable {α : Type} [Scalar α]

/-- The sum from the left.  It starts at minus zero, which changes no sum and keeps the sign of
one that is all minus zeros. -/
def sum (values : List α) : α := values.foldl (· + ·) (-0.0)

def mean (values : List α) : α :=
  if values.isEmpty then 0.0 else sum values / Scalar.ofNat values.length

/-- The population standard deviation. -/
def deviation (values : List α) : α :=
  if values.length < 2 then 0.0
  else
    let m := mean values
    let squares := values.map fun v => (v - m) * (v - m)
    Scalar.sqrt (sum squares / Scalar.ofNat values.length)

def maximum : List α → α
  | [] => 0.0
  | v :: rest => rest.foldl Scalar.larger v

def stability (values : List α) : α := 1.0 - deviation values / (mean values + 0.01)

end WorkloadSynth.Stats
