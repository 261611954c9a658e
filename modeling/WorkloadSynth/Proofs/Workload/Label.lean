import WorkloadSynth.Proofs.Stats.Bounds
import WorkloadSynth.Proofs.Workload.Usage
import WorkloadSynth.Workload.Label

/-!
# Labels are in range

A policy labels a trace if it *grants* both requests, that is if the bounds of a request are in order and
the clamped request leaves room for a limit, and if the bounds of the confidence are in order
(`exists_label`).  Where its coefficients are finite, whatever label it gives a trace of well-formed steps
of any length, or a single step, is in range: requests and confidence between the bounds of the policy,
and each limit between its request and one.  A policy whose bounds are in order grants every request.
-/

set_option autoImplicit false

namespace WorkloadSynth

open Binary64 (Within)

namespace Quantiles

variable {q : Quantiles Float}

theorem Ordered.within_p50 (h : q.Ordered) : Within 0.0 1.0 q.p50 :=
  ⟨h.1, h.2.1, by decide, by decide⟩

theorem Ordered.within_p99 (h : q.Ordered) : Within 0.0 1.0 q.p99 :=
  ⟨LawfulOrder.le_trans h.1 (LawfulOrder.le_trans h.2.2.1 h.2.2.2.1), h.2.2.2.2, by decide, by decide⟩

end Quantiles

namespace SizingPolicy

structure Finite (policy : SizingPolicy Float) : Prop where
  cpuRequestFactor : policy.cpuRequestFactor.isFinite = true
  cpuLimitFactor : policy.cpuLimitFactor.isFinite = true
  memoryRequestFactor : policy.memoryRequestFactor.isFinite = true
  memoryLimitFactor : policy.memoryLimitFactor.isFinite = true
  requestOffset : policy.requestOffset.isFinite = true
  limitOffset : policy.limitOffset.isFinite = true
  minResource : policy.minResource.isFinite = true
  maxRequest : policy.maxRequest.isFinite = true
  minConfidence : policy.minConfidence.isFinite = true
  maxConfidence : policy.maxConfidence.isFinite = true
  anomalyConfidenceFactor : policy.anomalyConfidenceFactor.isFinite = true

/-- The bounds are in order, and the greatest request leaves room for a limit. -/
structure Orderly (policy : SizingPolicy Float) : Prop where
  request : policy.minResource ≤ policy.maxRequest
  limit : policy.maxRequest ≤ 1.0
  confidence : policy.minConfidence ≤ policy.maxConfidence

structure Allows (policy : SizingPolicy Float) (a : Allocation Float) : Prop where
  request : policy.minResource ≤ a.request ∧ a.request ≤ policy.maxRequest
  limit : a.request ≤ a.limit ∧ a.limit ≤ 1.0

theorem standard_finite : (standard : SizingPolicy Float).Finite := by
  constructor <;> decide

theorem standard_orderly : (standard : SizingPolicy Float).Orderly := by
  constructor <;> decide

variable {policy : SizingPolicy Float}

/-! ## Allocations -/

section

variable {α : Type} [Scalar α]

def requested (policy : SizingPolicy α) (median factor : α) : α :=
  Scalar.confine (median * factor + policy.requestOffset) policy.minResource policy.maxRequest

def allotted (policy : SizingPolicy α) (median tail requestFactor limitFactor : α) : Allocation α :=
  let request := policy.requested median requestFactor
  ⟨request, Scalar.confine (tail * limitFactor + policy.limitOffset) request 1.0⟩

/-- A request can be made, and it leaves room for a limit. -/
def Grants (policy : SizingPolicy α) (median factor : α) : Prop :=
  policy.minResource ≤ policy.maxRequest ∧ policy.requested median factor ≤ 1.0

variable {policy : SizingPolicy α} {median tail requestFactor limitFactor : α}

theorem allocate_eq_ok {a : Allocation α} :
    policy.allocate median tail requestFactor limitFactor = .ok a ↔
      policy.Grants median requestFactor ∧ policy.allotted median tail requestFactor limitFactor = a := by
  unfold allocate
  simp only [bind_eq_ok, Scalar.clamp_eq_ok]
  constructor
  · rintro ⟨_, ⟨hbounds, rfl⟩, _, ⟨hroom, rfl⟩, ⟨⟩⟩
    exact ⟨⟨hbounds, hroom⟩, rfl⟩
  · rintro ⟨⟨hbounds, hroom⟩, rfl⟩
    exact ⟨_, ⟨hbounds, rfl⟩, _, ⟨hroom, rfl⟩, rfl⟩

end

theorem Orderly.grants (hp : policy.Finite) (ho : policy.Orderly) {median factor : Float}
    (hmedian : median.isFinite = true) (hf : factor.isFinite = true) : policy.Grants median factor := by
  have hneed := Binary64.defined_add (Binary64.mul_spec hmedian hf).1 hp.requestOffset
  have hrequest := (Scalar.confine_mem hneed ho.request).2
  exact ⟨ho.request, LawfulOrder.le_trans hrequest ho.limit⟩

/-- The limit is clamped from below by a request that is at most one already. -/
theorem allotted_allows (hp : policy.Finite) {median tail requestFactor limitFactor : Float}
    (hg : policy.Grants median requestFactor) (hmedian : median.isFinite = true)
    (htail : tail.isFinite = true) (hr : requestFactor.isFinite = true) (hl : limitFactor.isFinite = true) :
    policy.Allows (policy.allotted median tail requestFactor limitFactor) := by
  have hneed := Binary64.defined_add (Binary64.mul_spec hmedian hr).1 hp.requestOffset
  have hworst := Binary64.defined_add (Binary64.mul_spec htail hl).1 hp.limitOffset
  exact ⟨Scalar.confine_mem hneed hg.1, Scalar.confine_mem hworst hg.2⟩

/-! ## Confidence -/

theorem exists_confidence {α : Type} [Scalar α] {policy : SizingPolicy α} {cpuTail memoryTail : List α}
    {anomalous : Bool} : (∃ c, policy.confidence cpuTail memoryTail anomalous = .ok c) ↔
      policy.minConfidence ≤ policy.maxConfidence := by
  unfold confidence
  simp only [bind_eq_ok, Scalar.clamp_eq_ok]
  constructor
  · rintro ⟨_, _, ⟨h, -⟩, -⟩
    exact h
  · intro h
    cases anomalous with
    | false => exact ⟨_, _, ⟨h, rfl⟩, rfl⟩
    | true => exact ⟨_, _, ⟨h, rfl⟩, Scalar.clamp_of_le h⟩

theorem confidence_mem (hp : policy.Finite) {cpuTail memoryTail : List Float}
    (hcpu : ∀ v ∈ cpuTail, Within 0.0 1.0 v) (hmemory : ∀ v ∈ memoryTail, Within 0.0 1.0 v)
    {anomalous : Bool} {c : Float} (h : policy.confidence cpuTail memoryTail anomalous = .ok c) :
    policy.minConfidence ≤ c ∧ c ≤ policy.maxConfidence := by
  have horder := exists_confidence.mp ⟨c, h⟩
  have hboth : Within (-1e28) 1e28 (Stats.stability cpuTail + Stats.stability memoryTail) :=
    (Stats.within_stability hcpu).add (Stats.within_stability hmemory) (by decide +kernel)
  have hmean : Within (-1e28) 1e28 (0.5 * (Stats.stability cpuTail + Stats.stability memoryTail)) :=
    (by decide : Within (-1.0) 1.0 (0.5 : Float)).mul_size hboth (by decide +kernel)
  have hscaled : Within (-1e28) 1e28
      (0.5 * (Stats.stability cpuTail + Stats.stability memoryTail) * 0.9) :=
    hmean.mul_size (by decide : Within (-1.0) 1.0 (0.9 : Float)) (by decide +kernel)
  have hbase : Within (-1e29) 1e29
      (0.5 * (Stats.stability cpuTail + Stats.stability memoryTail) * 0.9 + 0.1) :=
    hscaled.add (Within.self (by decide)) (by decide +kernel)
  have hnominal : Within policy.minConfidence policy.maxConfidence _ :=
    Within.confine hbase.defined ⟨hp.minConfidence, hp.maxConfidence, horder⟩
  obtain ⟨nominal, hclamped, h⟩ := bind_eq_ok.mp h
  obtain ⟨-, rfl⟩ := Scalar.clamp_eq_ok.mp hclamped
  cases anomalous with
  | false =>
      cases h
      exact ⟨hnominal.lower, hnominal.upper⟩
  | true =>
      obtain ⟨-, rfl⟩ := Scalar.clamp_eq_ok.mp h
      exact Scalar.confine_mem (Binary64.mul_spec hnominal.isFinite hp.anomalyConfidenceFactor).1 horder

/-! ## Labels -/

section

variable {α : Type} [Scalar α] {policy : SizingPolicy α}

theorem label_eq_ok {t : Trace α} {l : Recommendation α} : policy.label t = .ok l ↔
    policy.allocateCpu (Stats.mean (t.series (·.cpu.p50))) (Stats.maximum (t.series (·.cpu.p99))) =
        .ok l.cpu ∧
      policy.allocateMemory (Stats.mean (t.series (·.memory.p50)))
        (Stats.maximum (t.series (·.memory.p99))) = .ok l.memory ∧
      policy.confidence (t.series (·.cpu.p99)) (t.series (·.memory.p99)) t.episode.isSome =
        .ok l.confidence := by
  simp only [label, bind_eq_ok]
  constructor
  · rintro ⟨_, hcpu, _, hmemory, _, hconfidence, ⟨⟩⟩
    exact ⟨hcpu, hmemory, hconfidence⟩
  · rintro ⟨hcpu, hmemory, hconfidence⟩
    exact ⟨_, hcpu, _, hmemory, _, hconfidence, rfl⟩

theorem labelPoint_eq_ok {u : Usage α} {baseConfidence : α} {anomaly : Option Anomaly}
    {l : Recommendation α} : policy.labelPoint u baseConfidence anomaly = .ok l ↔
      policy.allocateCpu u.cpu.p50 u.cpu.p99 = .ok l.cpu ∧
        policy.allocateMemory u.memory.p50 u.memory.p99 = .ok l.memory ∧
        Scalar.confineUnit (baseConfidence * anomaly.elim 1.0 Anomaly.pointConfidence) =
          l.confidence := by
  simp only [labelPoint, bind_eq_ok]
  constructor
  · rintro ⟨_, hcpu, _, hmemory, ⟨⟩⟩
    exact ⟨hcpu, hmemory, rfl⟩
  · rintro ⟨hcpu, hmemory, hconfidence⟩
    refine ⟨_, hcpu, _, hmemory, ?_⟩
    rw [hconfidence]
    rfl

theorem exists_label {t : Trace α} : (∃ l, policy.label t = .ok l) ↔
    policy.Grants (Stats.mean (t.series (·.cpu.p50))) policy.cpuRequestFactor ∧
      policy.Grants (Stats.mean (t.series (·.memory.p50))) policy.memoryRequestFactor ∧
      policy.minConfidence ≤ policy.maxConfidence := by
  simp only [label, allocateCpu, allocateMemory, bind_eq_ok, allocate_eq_ok]
  constructor
  · rintro ⟨_, _, ⟨hcpu, -⟩, _, ⟨hmemory, -⟩, c, hc, -⟩
    exact ⟨hcpu, hmemory, exists_confidence.mp ⟨c, hc⟩⟩
  · rintro ⟨hcpu, hmemory, hconfidence⟩
    obtain ⟨c, hc⟩ := exists_confidence.mpr hconfidence
    exact ⟨_, _, ⟨hcpu, rfl⟩, _, ⟨hmemory, rfl⟩, c, hc, rfl⟩

theorem exists_labelPoint {u : Usage α} {baseConfidence : α} {anomaly : Option Anomaly} :
    (∃ l, policy.labelPoint u baseConfidence anomaly = .ok l) ↔
      policy.Grants u.cpu.p50 policy.cpuRequestFactor ∧
        policy.Grants u.memory.p50 policy.memoryRequestFactor := by
  simp only [labelPoint, allocateCpu, allocateMemory, bind_eq_ok, allocate_eq_ok]
  constructor
  · rintro ⟨_, _, ⟨hcpu, -⟩, _, ⟨hmemory, -⟩, -⟩
    exact ⟨hcpu, hmemory⟩
  · rintro ⟨hcpu, hmemory⟩
    exact ⟨_, _, ⟨hcpu, rfl⟩, _, ⟨hmemory, rfl⟩, rfl⟩

end

section Series

variable {t : Trace Float} {reading : Usage Float → Float}

theorem within_series (ht : ∀ u ∈ t.steps, u.WellFormed)
    (hreading : ∀ u : Usage Float, u.WellFormed → Within 0.0 1.0 (reading u)) :
    ∀ v ∈ t.series reading, Within 0.0 1.0 v := by
  intro v hv
  obtain ⟨u, hu, rfl⟩ := List.mem_map.mp hv
  exact hreading u (ht u hu)

theorem isFinite_mean_series (ht : ∀ u ∈ t.steps, u.WellFormed)
    (hreading : ∀ u : Usage Float, u.WellFormed → Within 0.0 1.0 (reading u)) :
    (Stats.mean (t.series reading)).isFinite = true :=
  (Stats.within_mean (within_series ht hreading)).isFinite

end Series

theorem label_mem (hp : policy.Finite) {t : Trace Float} (ht : ∀ u ∈ t.steps, u.WellFormed)
    {l : Recommendation Float} (h : policy.label t = .ok l) :
    policy.Allows l.cpu ∧ policy.Allows l.memory ∧
      policy.minConfidence ≤ l.confidence ∧ l.confidence ≤ policy.maxConfidence := by
  have hcpuTail : ∀ v ∈ t.series (·.cpu.p99), Within 0.0 1.0 v :=
    within_series ht fun _ hu => hu.1.within_p99
  have hmemoryTail : ∀ v ∈ t.series (·.memory.p99), Within 0.0 1.0 v :=
    within_series ht fun _ hu => hu.2.1.within_p99
  simp only [label, allocateCpu, allocateMemory, bind_eq_ok, allocate_eq_ok] at h
  obtain ⟨_, ⟨hcpu, rfl⟩, _, ⟨hmemory, rfl⟩, c, hc, ⟨⟩⟩ := h
  exact ⟨allotted_allows hp hcpu (isFinite_mean_series ht fun _ hu => hu.1.within_p50)
      (Stats.within_maximum hcpuTail).isFinite hp.cpuRequestFactor hp.cpuLimitFactor,
    allotted_allows hp hmemory (isFinite_mean_series ht fun _ hu => hu.2.1.within_p50)
      (Stats.within_maximum hmemoryTail).isFinite hp.memoryRequestFactor hp.memoryLimitFactor,
    confidence_mem hp hcpuTail hmemoryTail hc⟩

theorem label_spec (hp : policy.Finite) (ho : policy.Orderly) {t : Trace Float}
    (ht : ∀ u ∈ t.steps, u.WellFormed) :
    ∃ l, policy.label t = .ok l ∧ policy.Allows l.cpu ∧ policy.Allows l.memory ∧
      policy.minConfidence ≤ l.confidence ∧ l.confidence ≤ policy.maxConfidence := by
  obtain ⟨l, hl⟩ := (exists_label (t := t)).mpr
    ⟨ho.grants hp (isFinite_mean_series ht fun _ hu => hu.1.within_p50) hp.cpuRequestFactor,
      ho.grants hp (isFinite_mean_series ht fun _ hu => hu.2.1.within_p50) hp.memoryRequestFactor,
      ho.confidence⟩
  exact ⟨l, hl, label_mem hp ht hl⟩

theorem pointConfidence_mem {baseConfidence : Float} (h : baseConfidence ≤ baseConfidence)
    (anomaly : Option Anomaly) :
    0.0 ≤ Scalar.confineUnit (baseConfidence * anomaly.elim 1.0 Anomaly.pointConfidence) ∧
      Scalar.confineUnit (baseConfidence * anomaly.elim 1.0 Anomaly.pointConfidence) ≤ 1.0 := by
  have hfactor : Within 0.5 1.0 (anomaly.elim 1.0 Anomaly.pointConfidence : Float) := by
    cases anomaly with
    | none => exact by decide
    | some k => cases k <;> exact by decide
  have hpositive := Scalar.lt_of_lt_of_le (by decide : (0.0 : Float) < 0.5) hfactor.lower
  exact Scalar.confineUnit_mem (Binary64.defined_mul_of_pos h hfactor.isFinite hpositive)

theorem labelPoint_mem (hp : policy.Finite) {u : Usage Float} (hu : u.WellFormed) {baseConfidence : Float}
    {anomaly : Option Anomaly} {l : Recommendation Float}
    (h : policy.labelPoint u baseConfidence anomaly = .ok l) :
    policy.Allows l.cpu ∧ policy.Allows l.memory ∧
      (baseConfidence ≤ baseConfidence → 0.0 ≤ l.confidence ∧ l.confidence ≤ 1.0) := by
  simp only [labelPoint, allocateCpu, allocateMemory, bind_eq_ok, allocate_eq_ok] at h
  obtain ⟨_, ⟨hcpu, rfl⟩, _, ⟨hmemory, rfl⟩, ⟨⟩⟩ := h
  exact ⟨allotted_allows hp hcpu hu.1.within_p50.isFinite hu.1.within_p99.isFinite hp.cpuRequestFactor
      hp.cpuLimitFactor,
    allotted_allows hp hmemory hu.2.1.within_p50.isFinite hu.2.1.within_p99.isFinite
      hp.memoryRequestFactor hp.memoryLimitFactor,
    fun hbase => pointConfidence_mem hbase anomaly⟩

theorem Orderly.exists_labelPoint (hp : policy.Finite) (ho : policy.Orderly) {u : Usage Float}
    (hu : u.WellFormed) (baseConfidence : Float) (anomaly : Option Anomaly) :
    ∃ l, policy.labelPoint u baseConfidence anomaly = .ok l :=
  SizingPolicy.exists_labelPoint.mpr ⟨ho.grants hp hu.1.within_p50.isFinite hp.cpuRequestFactor,
    ho.grants hp hu.2.1.within_p50.isFinite hp.memoryRequestFactor⟩

theorem labelPoint_spec (hp : policy.Finite) (ho : policy.Orderly) {u : Usage Float} (hu : u.WellFormed)
    {baseConfidence : Float} (hbase : baseConfidence.isFinite = true) (anomaly : Option Anomaly) :
    ∃ l, policy.labelPoint u baseConfidence anomaly = .ok l ∧ policy.Allows l.cpu ∧
      policy.Allows l.memory ∧ 0.0 ≤ l.confidence ∧ l.confidence ≤ 1.0 := by
  obtain ⟨l, hl⟩ := ho.exists_labelPoint hp hu baseConfidence anomaly
  obtain ⟨hcpu, hmemory, hconfidence⟩ := labelPoint_mem hp hu hl
  exact ⟨l, hl, hcpu, hmemory, hconfidence (Binary64.defined_of_isFinite hbase)⟩

end SizingPolicy

end WorkloadSynth
