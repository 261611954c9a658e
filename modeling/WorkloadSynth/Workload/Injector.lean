import WorkloadSynth.Workload.Anomaly

/-!
Injectors: an episode with a noise source of its own, applied to the readings of steps in any order.

`Injector.apply` also says whether the episode concerned the step.  What was drawn for readings that cannot
be bounded stays drawn.
-/

set_option autoImplicit false

namespace WorkloadSynth

structure Injector (σ : Type) where
  episode : Episode
  noise : σ

namespace Injector

variable {σ α : Type} [Scalar α]

/-- What an application gives: whether the readings were touched, and what they are now. -/
abbrev Outcome (α : Type) := Except RangeFault (Bool × Usage α)

def apply (source : NoiseSource σ α) (i : Injector σ) (index : Nat) (u : Usage α) :
    Outcome α × Injector σ :=
  if i.episode.Covers index then
    let (distorted, noise) := Episode.distort i.episode.anomaly source u i.noise
    (distorted.bounded.map fun v => (true, v), { i with noise })
  else (.ok (false, u), i)

def applyAll (source : NoiseSource σ α) :
    Injector σ → List (Nat × Usage α) → List (Outcome α) × Injector σ
  | i, [] => ([], i)
  | i, (index, u) :: rest =>
    let (outcome, i) := i.apply source index u
    let (outcomes, i) := applyAll source i rest
    (outcome :: outcomes, i)

end Injector

end WorkloadSynth
