import WorkloadSynth.Workload.Archetype

/-!
Resource usage in one time step, and the label a trace is given.

`Usage` holds the percentiles of processor and memory use beside derived readings and the time of
the step.  `WellFormed` says that the percentiles are in order and every reading in its range;
`bounded` brings a usage there by clamping, each percentile from below by the one before it.
-/

set_option autoImplicit false

namespace WorkloadSynth

variable {α : Type}

structure Quantiles (α : Type) where
  p50 : α
  p95 : α
  p99 : α
deriving DecidableEq, Repr

structure Usage (α : Type) where
  cpu : Quantiles α
  memory : Quantiles α
  cpuVariance : α
  memoryTrend : α
  throttle : α
  hour : α
  day : α
  age : α
deriving DecidableEq, Repr

structure Allocation (α : Type) where
  request : α
  limit : α
deriving DecidableEq, Repr

structure Recommendation (α : Type) where
  cpu : Allocation α
  memory : Allocation α
  confidence : α
deriving DecidableEq, Repr

namespace Quantiles

variable [Scalar α]

/-- In order, and within the unit interval. -/
def Ordered (q : Quantiles α) : Prop :=
  0.0 ≤ q.p50 ∧ q.p50 ≤ 1.0 ∧ q.p50 ≤ q.p95 ∧ q.p95 ≤ q.p99 ∧ q.p99 ≤ 1.0

instance (q : Quantiles α) : Decidable q.Ordered := by unfold Ordered; infer_instance

def bounded (q : Quantiles α) : Except RangeFault (Quantiles α) := do
  let p50 := Scalar.confineUnit q.p50
  let p95 ← Scalar.clamp q.p95 p50 1.0
  let p99 ← Scalar.clamp q.p99 p95 1.0
  pure ⟨p50, p95, p99⟩

end Quantiles

namespace Usage

def columnNames : List String :=
  ["cpu_p50", "cpu_p95", "cpu_p99", "mem_p50", "mem_p95", "mem_p99", "cpu_var", "mem_trend",
    "throttle", "hour", "day", "age"]

def toList (u : Usage α) : List α :=
  [u.cpu.p50, u.cpu.p95, u.cpu.p99, u.memory.p50, u.memory.p95, u.memory.p99, u.cpuVariance,
    u.memoryTrend, u.throttle, u.hour, u.day, u.age]

def ofList? : List α → Option (Usage α)
  | [c50, c95, c99, m50, m95, m99, variance, trend, throttle, hour, day, age] =>
    some ⟨⟨c50, c95, c99⟩, ⟨m50, m95, m99⟩, variance, trend, throttle, hour, day, age⟩
  | _ => none

theorem length_toList (u : Usage α) : u.toList.length = columnNames.length := rfl

variable [Scalar α]

/-- Percentiles in order and readings in range; the time of the step is free. -/
def WellFormed (u : Usage α) : Prop :=
  u.cpu.Ordered ∧ u.memory.Ordered ∧ (0.0 ≤ u.cpuVariance ∧ u.cpuVariance ≤ 1.0) ∧
    (-1.0 ≤ u.memoryTrend ∧ u.memoryTrend ≤ 1.0) ∧ (0.0 ≤ u.throttle ∧ u.throttle ≤ 1.0)

instance (u : Usage α) : Decidable u.WellFormed := by unfold WellFormed; infer_instance

def bounded (u : Usage α) : Except RangeFault (Usage α) := do
  let cpu ← u.cpu.bounded
  let memory ← u.memory.bounded
  pure { u with
    cpu := cpu
    memory := memory
    cpuVariance := Scalar.confineUnit u.cpuVariance
    memoryTrend := Scalar.confine u.memoryTrend (-1.0) 1.0
    throttle := Scalar.confineUnit u.throttle }

end Usage

namespace Recommendation

def columnNames : List String := ["cpu_req", "cpu_lim", "mem_req", "mem_lim", "confidence"]

def toList (r : Recommendation α) : List α :=
  [r.cpu.request, r.cpu.limit, r.memory.request, r.memory.limit, r.confidence]

def ofList? : List α → Option (Recommendation α)
  | [cpuRequest, cpuLimit, memoryRequest, memoryLimit, confidence] =>
    some ⟨⟨cpuRequest, cpuLimit⟩, ⟨memoryRequest, memoryLimit⟩, confidence⟩
  | _ => none

theorem length_toList (r : Recommendation α) : r.toList.length = columnNames.length := rfl

end Recommendation

end WorkloadSynth
