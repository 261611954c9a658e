import WorkloadSynth.Workload.Archetype

/-!
Time as a workload sees it: the hour within a day and the day within a week, both as fractions that
wrap around, and the age of the workload in days, which does not.

`Moment.later` moves a moment by a number of steps, always counted from the moment itself so that
no rounding builds up along a trace.  `Season` turns a moment into the factor by which the load of
that hour and day differs from the mean.
-/

set_option autoImplicit false

namespace WorkloadSynth

variable {α : Type} [Scalar α]

def fullAgeDays {α : Type} [Scalar α] : α := 30.0

structure Moment (α : Type) where
  hour : α
  day : α
  ageDays : α
deriving DecidableEq, Repr, Inhabited

namespace Moment

def later (m : Moment α) (steps : Nat) (stepHours : α) : Moment α :=
  let elapsed := Scalar.ofNat steps * stepHours
  { hour := Scalar.wrapUnit (m.hour + elapsed / 24.0)
    day := Scalar.wrapUnit (m.day + elapsed / 168.0)
    ageDays := m.ageDays + elapsed / 24.0 }

def relativeAge (m : Moment α) : α := Scalar.confineUnit (m.ageDays / fullAgeDays)

end Moment

namespace Season

def peakHour {α : Type} [Scalar α] : α := 14.0 / 24.0

def weekendStart {α : Type} [Scalar α] : α := 5.0 / 7.0

def pi {α : Type} [Scalar α] : α := 3.14159265358979323846264338327950288

/-- The daily rhythm: `1 + factor` at the peak hour, `1 - factor` half a day away. -/
def daily (hour factor : α) : α :=
  1.0 + factor * Scalar.sine (2.0 * pi * (hour - peakHour + 0.25))

def weekly (day factor : α) : α :=
  if weekendStart < day then 1.0 - 0.3 * factor else 1.0 + 0.1 * factor

def load (hour day factor : α) : α := daily hour factor * weekly day (factor / 2.0)

end Season

def Profile.loadAt (p : Profile α) (m : Moment α) : α :=
  Season.load m.hour m.day p.diurnalFactor

end WorkloadSynth
