import WorkloadSynth.Stats.Batch
import WorkloadSynth.Workload.Trace

/-!
Labels: the allocation a trace calls for.

A request follows the average median and a limit the worst tail, both with headroom and within the
bounds of the policy; a limit is never below its request.  The confidence of a trace is the mean
stability of the two tail series, lower if the trace carries an episode.  A single step is labelled
from its own readings with a confidence drawn elsewhere.
-/

set_option autoImplicit false

namespace WorkloadSynth

structure SizingPolicy (α : Type) where
  cpuRequestFactor : α
  cpuLimitFactor : α
  memoryRequestFactor : α
  memoryLimitFactor : α
  requestOffset : α
  limitOffset : α
  minResource : α
  maxRequest : α
  minConfidence : α
  maxConfidence : α
  anomalyConfidenceFactor : α

namespace SizingPolicy

variable {α : Type} [Scalar α]

def standard : SizingPolicy α where
  cpuRequestFactor := 1.10
  cpuLimitFactor := 1.0 + 0.15
  memoryRequestFactor := 1.15
  memoryLimitFactor := 1.0 + 0.20
  requestOffset := 0.02
  limitOffset := 0.05
  minResource := 0.01
  maxRequest := 0.95
  minConfidence := 0.3
  maxConfidence := 0.95
  anomalyConfidenceFactor := 0.7

def allocate (policy : SizingPolicy α) (median tail requestFactor limitFactor : α) :
    Except RangeFault (Allocation α) := do
  let request ← Scalar.clamp (median * requestFactor + policy.requestOffset)
    policy.minResource policy.maxRequest
  let limit ← Scalar.clamp (tail * limitFactor + policy.limitOffset) request 1.0
  pure ⟨request, limit⟩

def allocateCpu (policy : SizingPolicy α) (median tail : α) : Except RangeFault (Allocation α) :=
  policy.allocate median tail policy.cpuRequestFactor policy.cpuLimitFactor

def allocateMemory (policy : SizingPolicy α) (median tail : α) : Except RangeFault (Allocation α) :=
  policy.allocate median tail policy.memoryRequestFactor policy.memoryLimitFactor

def confidence (policy : SizingPolicy α) (cpuTail memoryTail : List α) (anomalous : Bool) :
    Except RangeFault α := do
  let base := 0.5 * (Stats.stability cpuTail + Stats.stability memoryTail) * 0.9 + 0.1
  let nominal ← Scalar.clamp base policy.minConfidence policy.maxConfidence
  if anomalous then
    Scalar.clamp (nominal * policy.anomalyConfidenceFactor) policy.minConfidence
      policy.maxConfidence
  else pure nominal

def label (policy : SizingPolicy α) (t : Trace α) : Except RangeFault (Recommendation α) := do
  let cpuTail := t.series (·.cpu.p99)
  let memoryTail := t.series (·.memory.p99)
  let cpu ← policy.allocateCpu (Stats.mean (t.series (·.cpu.p50))) (Stats.maximum cpuTail)
  let memory ← policy.allocateMemory (Stats.mean (t.series (·.memory.p50)))
    (Stats.maximum memoryTail)
  let confidence ← policy.confidence cpuTail memoryTail t.episode.isSome
  pure ⟨cpu, memory, confidence⟩

/-- The label of a single step whose confidence without an anomaly is given. -/
def labelPoint (policy : SizingPolicy α) (u : Usage α) (baseConfidence : α)
    (anomaly : Option Anomaly) : Except RangeFault (Recommendation α) := do
  let cpu ← policy.allocateCpu u.cpu.p50 u.cpu.p99
  let memory ← policy.allocateMemory u.memory.p50 u.memory.p99
  let factor := anomaly.elim 1.0 Anomaly.pointConfidence
  pure ⟨cpu, memory, Scalar.confineUnit (baseConfidence * factor)⟩

end SizingPolicy

end WorkloadSynth
