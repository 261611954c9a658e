import WorkloadSynth.Workload.Moment
import WorkloadSynth.Workload.Anomaly

/-!
Traces: the usage of one workload over a number of steps.

Each step first takes its nine noise terms, always the same ones in the same order (`StepNoise`),
and then computes its readings from them (`nominalStep`): the medians from the load of the hour and,
when the model carries medians over, from those of the step before; the upper percentiles stretched
from the medians; then variance, trend and throttling.  An episode strikes the finished step, so it
never reaches the medians that are carried on or the noise of later steps.
-/

set_option autoImplicit false

namespace WorkloadSynth

structure Trace (α : Type) where
  archetype : Archetype
  start : Moment α
  episode : Option Episode
  steps : List (Usage α)
deriving DecidableEq, Repr

namespace Trace

variable {α : Type}

def length (t : Trace α) : Nat := t.steps.length

def isEmpty (t : Trace α) : Bool := t.steps.isEmpty

def series (t : Trace α) (reading : Usage α → α) : List α := t.steps.map reading

end Trace

/-- The noise terms of one step, named for the reading they go into. -/
structure StepNoise (α : Type) where
  cpuMedian : α
  memoryMedian : α
  cpuMiddle : α
  cpuTail : α
  memoryMiddle : α
  memoryTail : α
  variance : α
  trend : α
  throttle : α

structure Carry (α : Type) where
  cpu : α
  memory : α

variable {σ α : Type} [Scalar α]

namespace StepNoise

def draw (source : NoiseSource σ α) (p : Profile α) (s : σ) : StepNoise α × σ :=
  let (cpuMedian, s) := source.normal (p.cpuVariance * 0.3) s
  let (memoryMedian, s) := source.normal 0.05 s
  let (cpuMiddle, s) := source.uniform 0.0 0.2 s
  let (cpuTail, s) := source.uniform 0.0 0.1 s
  let (memoryMiddle, s) := source.uniform 0.0 0.1 s
  let (memoryTail, s) := source.uniform 0.0 0.05 s
  let (variance, s) := source.uniform 0.0 0.5 s
  let (trend, s) := source.normal 0.02 s
  let (throttle, s) := source.uniform 0.0 0.1 s
  ({ cpuMedian, memoryMedian, cpuMiddle, cpuTail, memoryMiddle, memoryTail, variance, trend,
     throttle }, s)

end StepNoise

namespace Carry

/-- The base load of a step: the profile's alone, or a weighted mean with the medians before. -/
def blend (previous : Option (Carry α)) (weight : α) (base : Carry α) : Carry α :=
  match previous with
  | none => base
  | some p =>
    { cpu := weight * p.cpu + (1.0 - weight) * base.cpu
      memory := weight * p.memory + (1.0 - weight) * base.memory }

end Carry

namespace Profile

def baseAt (p : Profile α) (m : Moment α) : Carry α :=
  { cpu := p.baseCpu * p.loadAt m
    memory := p.baseMemory + p.memoryGrowth * m.ageDays }

def median (base noise : α) : α := Scalar.confine (base + noise) 0.01 0.95

def cpuQuantiles (p : Profile α) (p50 : α) (n : StepNoise α) :
    Except RangeFault (Quantiles α) := do
  let p95 ← Scalar.clamp (p50 * (1.0 + p.burstiness * 0.5 + n.cpuMiddle)) p50 0.98
  let p99 ← Scalar.clamp (p95 * (1.0 + p.burstiness * 0.3 + n.cpuTail)) p95 1.0
  pure ⟨p50, p95, p99⟩

def memoryQuantiles (p50 : α) (n : StepNoise α) : Except RangeFault (Quantiles α) := do
  let p95 ← Scalar.clamp (p50 * (1.0 + 0.1 + n.memoryMiddle)) p50 0.98
  let p99 ← Scalar.clamp (p95 * (1.0 + 0.05 + n.memoryTail)) p95 1.0
  pure ⟨p50, p95, p99⟩

/-- Throttling starts once the processor tail passes four fifths. -/
def throttling (cpuTail noise : α) : α :=
  Scalar.confineUnit (Scalar.larger (cpuTail - 0.8) 0.0 * 2.0 + noise)

def nominalStep (p : Profile α) (m : Moment α) (previous : Option (Carry α)) (n : StepNoise α) :
    Except RangeFault (Usage α × Carry α) := do
  let base := Carry.blend previous p.autocorrelation (p.baseAt m)
  let cpu50 := median base.cpu n.cpuMedian
  let cpu ← p.cpuQuantiles cpu50 n
  let memory50 := median base.memory n.memoryMedian
  let memory ← memoryQuantiles memory50 n
  let usage : Usage α :=
    { cpu := cpu
      memory := memory
      cpuVariance := p.cpuVariance * (0.5 + n.variance)
      memoryTrend := p.memoryGrowth + n.trend
      throttle := throttling cpu.p99 n.throttle
      hour := m.hour
      day := m.day
      age := m.relativeAge }
  let bounded ← usage.bounded
  pure (bounded, ⟨cpu50, memory50⟩)

end Profile

structure TraceModel (α : Type) where
  archetype : Archetype
  stepHours : α
  /-- Whether a step leans on the medians of the step before. -/
  carries : Bool

namespace TraceModel

def defaultStepHours {α : Type} [Scalar α] : α := 0.5

def step (model : TraceModel α) (nominal injected : NoiseSource σ α) (start : Moment α)
    (episode : Option Episode) (index : Nat) (previous : Option (Carry α)) (s : σ) :
    Except RangeFault (Usage α × Option (Carry α) × σ) := do
  let p := model.archetype.profile
  let (noise, s) := StepNoise.draw nominal p s
  let (usage, carry) ← p.nominalStep (start.later index model.stepHours) previous noise
  let carry := if model.carries then some carry else none
  match episode with
  | none => pure (usage, carry, s)
  | some e =>
    let (usage, s) ← e.strike injected index usage s
    pure (usage, carry, s)

def stepsFrom (model : TraceModel α) (nominal injected : NoiseSource σ α) (start : Moment α)
    (episode : Option Episode) : (count index : Nat) → Option (Carry α) → σ →
    Except RangeFault (List (Usage α) × σ)
  | 0, _, _, s => pure ([], s)
  | count + 1, index, previous, s => do
    let (usage, carry, s) ← model.step nominal injected start episode index previous s
    let (rest, s) ← stepsFrom model nominal injected start episode count (index + 1) carry s
    pure (usage :: rest, s)

/-- A trace of `length` steps.  `nominal` feeds the steps, `injected` the episode alone. -/
def trace (model : TraceModel α) (nominal injected : NoiseSource σ α) (start : Moment α)
    (length : Nat) (episode : Option Episode) (s : σ) : Except RangeFault (Trace α × σ) := do
  let (steps, s) ← model.stepsFrom nominal injected start episode length 0 none s
  pure ({ archetype := model.archetype, start, episode, steps }, s)

end TraceModel

end WorkloadSynth
