import WorkloadSynth.Proofs.Binary64.Identity
import WorkloadSynth.Proofs.Workload.Injection
import WorkloadSynth.Proofs.Workload.Label

/-!
# Episodes never lower an allocation

An episode keeps the medians of a step and raises one tail at most: a memory leak that of memory, a spike
that of the processor (`Episode.strikeFrom_raises`).  Requests follow medians and limits follow maxima of
tails, so the label of the struck trace has the same requests and limits that are no smaller
(`SizingPolicy.label_raised`).  Of arithmetic this needs that a factor above one makes no share smaller and
that the headroom of a limit grows with the tail; the rounding of doubles keeps both.
-/

set_option autoImplicit false

namespace WorkloadSynth

open Binary64 (Within)

variable {τ α : Type} [Scalar α]

class Amplifies (α : Type) [Scalar α] : Prop where
  le_mul_leak {x : α} : 0.0 ≤ x → x ≤ 1.0 → x ≤ x * 1.3
  le_mul_spike {x : α} : 0.0 ≤ x → x ≤ 1.0 → x ≤ x * 2.0

/-! ## Shares -/

def Lifts (x y : α) : Prop := 0.0 ≤ x ∧ x ≤ y ∧ y ≤ 1.0

section

variable [LawfulOrder α]

theorem Lifts.zero : Lifts (0.0 : α) 0.0 :=
  have hzero : (0.0 : α) ≤ 0.0 := LawfulOrder.defined_left LawfulOrder.zero_le_one
  ⟨hzero, hzero, LawfulOrder.zero_le_one⟩

theorem Lifts.larger {a b a' b' : α} (ha : Lifts a a') (hb : Lifts b b') :
    Lifts (Scalar.larger a b) (Scalar.larger a' b') := by
  obtain ⟨hlow, hraised, hhigh⟩ := ha
  refine ⟨?_, Scalar.larger_mono hraised hb.2.1, Scalar.larger_le hhigh hb.2.2⟩
  rcases Scalar.larger_eq_or a b with h | h <;> rw [h]
  · exact hlow
  · exact hb.1

theorem Lifts.foldl_larger {xs ys : List α} (h : List.Forall₂ Lifts xs ys) {x y : α} (hxy : Lifts x y) :
    Lifts (xs.foldl Scalar.larger x) (ys.foldl Scalar.larger y) := by
  induction h generalizing x y with
  | nil => exact hxy
  | cons hhead _ ih => exact ih (hxy.larger hhead)

theorem Lifts.maximum {xs ys : List α} (h : List.Forall₂ Lifts xs ys) :
    Lifts (Stats.maximum xs) (Stats.maximum ys) := by
  cases h with
  | nil => exact .zero
  | cons hhead hrest => exact hhead.foldl_larger hrest

end

/-! ## Steps -/

/-- What an anomaly can have made of a step: no median is moved, and no tail falls or is another's. -/
structure Usage.Raised (k : Anomaly) (u v : Usage α) : Prop where
  cpuMedian : v.cpu.p50 = u.cpu.p50
  memoryMedian : v.memory.p50 = u.memory.p50
  cpuTail : Lifts u.cpu.p99 v.cpu.p99
  memoryTail : Lifts u.memory.p99 v.memory.p99
  cpuKept : k ≠ .cpuSpike → v.cpu.p99 = u.cpu.p99
  memoryKept : k ≠ .memoryLeak → v.memory.p99 = u.memory.p99

namespace Quantiles

variable [LawfulOrder α] {q : Quantiles α}

theorem Ordered.tail_nonneg (h : q.Ordered) : 0.0 ≤ q.p99 :=
  LawfulOrder.le_trans h.1 (LawfulOrder.le_trans h.2.2.1 h.2.2.2.1)

theorem Ordered.tail_self (h : q.Ordered) : Lifts q.p99 q.p99 :=
  ⟨h.tail_nonneg, LawfulOrder.defined_left h.2.2.2.2, h.2.2.2.2⟩

theorem Ordered.trimmed_eq (h : q.Ordered) : q.trimmed = q := by
  rw [trimmed, Scalar.confine_eq_self h.2.2.2.1 h.2.2.2.2]

theorem Ordered.tail_raised (h : q.Ordered) {raised : α} (hraised : q.p99 ≤ raised) :
    Lifts q.p99 { q with p99 := Scalar.confineUnit raised }.trimmed.p99 := by
  have hunit : q.p99 ≤ Scalar.confineUnit raised := Scalar.le_confine hraised h.2.2.2.2
  exact ⟨h.tail_nonneg, Scalar.le_confine hunit h.2.2.2.2,
    (Scalar.confine_mem (LawfulOrder.defined_right hunit) h.rising.2.2).2⟩

end Quantiles

theorem Usage.WellFormed.raised_self [LawfulOrder α] {u : Usage α} (h : u.WellFormed) (k : Anomaly) :
    u.Raised k u :=
  ⟨rfl, rfl, h.1.tail_self, h.2.1.tail_self, fun _ => rfl, fun _ => rfl⟩

namespace Episode

variable [LawfulOrder α] [Amplifies α]

theorem distort_raises (k : Anomaly) (source : NoiseSource τ α) {u : Usage α} (hu : u.WellFormed) (s : τ) :
    (distort k source u s).1.bounded = .ok (distort k source u s).1.trimmed ∧
      u.Raised k (distort k source u s).1.trimmed := by
  obtain ⟨hcpu, hmemory, -⟩ := hu
  have hcpuKept : u.cpu.trimmed.p99 = u.cpu.p99 := by rw [hcpu.trimmed_eq]
  have hmemoryKept : u.memory.trimmed.p99 = u.memory.p99 := by rw [hmemory.trimmed_eq]
  have hcpuSelf : Lifts u.cpu.p99 u.cpu.trimmed.p99 := hcpuKept ▸ hcpu.tail_self
  have hmemorySelf : Lifts u.memory.p99 u.memory.trimmed.p99 := hmemoryKept ▸ hmemory.tail_self
  refine ⟨?_, ?_⟩
  · cases k <;> exact Usage.bounded_of_rising hcpu.rising hmemory.rising
  · cases k with
    | memoryLeak =>
        have hraised := Amplifies.le_mul_leak hmemory.tail_nonneg hmemory.2.2.2.2
        exact ⟨rfl, rfl, hcpuSelf, hmemory.tail_raised hraised, fun _ => hcpuKept, fun h => absurd rfl h⟩
    | cpuSpike =>
        have hraised := Amplifies.le_mul_spike hcpu.tail_nonneg hcpu.2.2.2.2
        exact ⟨rfl, rfl, hcpu.tail_raised hraised, hmemorySelf, fun h => absurd rfl h, fun _ => hmemoryKept⟩
    | noisy => exact ⟨rfl, rfl, hcpuSelf, hmemorySelf, fun _ => hcpuKept, fun _ => hmemoryKept⟩

theorem strike_raises (e : Episode) (source : NoiseSource τ α) (index : Nat) {u : Usage α}
    (hu : u.WellFormed) (s : τ) :
    ∃ v s', e.strike source index u s = .ok (v, s') ∧ u.Raised e.anomaly v := by
  unfold strike
  split
  · obtain ⟨hbounded, hraised⟩ := distort_raises e.anomaly source hu s
    exact ⟨_, _, bind_eq_ok.mpr ⟨_, hbounded, rfl⟩, hraised⟩
  · exact ⟨u, s, rfl, hu.raised_self e.anomaly⟩

theorem strikeFrom_raises (e : Episode) (source : NoiseSource τ α) (index : Nat) {steps : List (Usage α)}
    (hsteps : ∀ u ∈ steps, u.WellFormed) (s : τ) :
    ∃ struck s', e.strikeFrom source index steps s = .ok (struck, s') ∧
      List.Forall₂ (Usage.Raised e.anomaly) steps struck := by
  induction steps generalizing index s with
  | nil => exact ⟨[], s, rfl, .nil⟩
  | cons u rest ih =>
      obtain ⟨hu, hrest⟩ := List.forall_mem_cons.mp hsteps
      obtain ⟨v, s₁, hstrike, hraised⟩ := strike_raises e source index hu s
      obtain ⟨struck, s', htail, hall⟩ := ih (index + 1) hrest s₁
      refine ⟨v :: struck, s', ?_, .cons hraised hall⟩
      simp only [strikeFrom, hstrike, htail, bind, Except.bind, pure, Except.pure]

end Episode

/-! ## Traces -/

namespace Trace

variable {t t' : Trace α} {reading : Usage α → α} {R : Usage α → Usage α → Prop}

omit [Scalar α] in
theorem forall₂_series {S : α → α → Prop} (h : List.Forall₂ R t.steps t'.steps)
    (hreading : ∀ u v, R u v → S (reading u) (reading v)) :
    List.Forall₂ S (t.series reading) (t'.series reading) := by
  rw [series, series, List.forall₂_map_left_iff, List.forall₂_map_right_iff]
  exact h.imp hreading

omit [Scalar α] in
theorem series_eq (h : List.Forall₂ R t.steps t'.steps)
    (hkept : ∀ u v, R u v → reading v = reading u) : t'.series reading = t.series reading := by
  have hall : List.Forall₂ (· = ·) (t.series reading) (t'.series reading) :=
    forall₂_series h fun u v huv => (hkept u v huv).symm
  rw [List.forall₂_eq_eq_eq] at hall
  exact hall.symm

theorem maximum_series_lifts [LawfulOrder α] (h : List.Forall₂ R t.steps t'.steps)
    (hraised : ∀ u v, R u v → Lifts (reading u) (reading v)) :
    Lifts (Stats.maximum (t.series reading)) (Stats.maximum (t'.series reading)) :=
  Lifts.maximum (forall₂_series h hraised)

end Trace

/-! ## Labels -/

/-- The same requests, no smaller limits, and no limit of a resource that the anomaly leaves alone moved. -/
structure Recommendation.Raised (k : Anomaly) (l l' : Recommendation α) : Prop where
  cpuRequest : l'.cpu.request = l.cpu.request
  memoryRequest : l'.memory.request = l.memory.request
  cpuLimit : l.cpu.limit ≤ l'.cpu.limit
  memoryLimit : l.memory.limit ≤ l'.memory.limit
  cpuKept : k ≠ .cpuSpike → l'.cpu.limit = l.cpu.limit
  memoryKept : k ≠ .memoryLeak → l'.memory.limit = l.memory.limit

namespace SizingPolicy

structure Increasing (policy : SizingPolicy α) : Prop where
  cpu {x y : α} : Lifts x y →
    x * policy.cpuLimitFactor + policy.limitOffset ≤ y * policy.cpuLimitFactor + policy.limitOffset
  memory {x y : α} : Lifts x y →
    x * policy.memoryLimitFactor + policy.limitOffset ≤ y * policy.memoryLimitFactor + policy.limitOffset

variable {policy : SizingPolicy α}

theorem request_eq {median tail tail' requestFactor limitFactor : α} {a a' : Allocation α}
    (h : policy.allocate median tail requestFactor limitFactor = .ok a)
    (h' : policy.allocate median tail' requestFactor limitFactor = .ok a') : a'.request = a.request := by
  obtain ⟨-, rfl⟩ := allocate_eq_ok.mp h
  obtain ⟨-, rfl⟩ := allocate_eq_ok.mp h'
  rfl

variable [LawfulOrder α]

theorem request_mono {median median' tail tail' requestFactor limitFactor : α} {a a' : Allocation α}
    (hmedian : median * requestFactor + policy.requestOffset ≤
      median' * requestFactor + policy.requestOffset)
    (h : policy.allocate median tail requestFactor limitFactor = .ok a)
    (h' : policy.allocate median' tail' requestFactor limitFactor = .ok a') : a.request ≤ a'.request := by
  obtain ⟨hgrants, rfl⟩ := allocate_eq_ok.mp h
  obtain ⟨-, rfl⟩ := allocate_eq_ok.mp h'
  exact Scalar.confine_mono hgrants.1 hmedian

theorem limit_mono {median median' tail tail' requestFactor limitFactor : α} {a a' : Allocation α}
    (hrequest : a.request ≤ a'.request)
    (htail : tail * limitFactor + policy.limitOffset ≤ tail' * limitFactor + policy.limitOffset)
    (h : policy.allocate median tail requestFactor limitFactor = .ok a)
    (h' : policy.allocate median' tail' requestFactor limitFactor = .ok a') : a.limit ≤ a'.limit := by
  obtain ⟨-, rfl⟩ := allocate_eq_ok.mp h
  obtain ⟨hgrants, rfl⟩ := allocate_eq_ok.mp h'
  exact Scalar.confine_le_confine hrequest hgrants.2 htail

theorem limit_mono_of_tail {median tail tail' requestFactor limitFactor : α} {a a' : Allocation α}
    (htail : tail * limitFactor + policy.limitOffset ≤ tail' * limitFactor + policy.limitOffset)
    (h : policy.allocate median tail requestFactor limitFactor = .ok a)
    (h' : policy.allocate median tail' requestFactor limitFactor = .ok a') : a.limit ≤ a'.limit := by
  have hrequest : a.request ≤ a'.request := by
    obtain ⟨hgrants, rfl⟩ := allocate_eq_ok.mp h
    obtain ⟨-, rfl⟩ := allocate_eq_ok.mp h'
    exact LawfulOrder.defined_left hgrants.2
  exact limit_mono hrequest htail h h'

theorem raised_of_tails (hp : policy.Increasing) {k : Anomaly} {l l' : Recommendation α}
    {cpuMedian cpuTail cpuTail' memoryMedian memoryTail memoryTail' : α} (hcpu : Lifts cpuTail cpuTail')
    (hmemory : Lifts memoryTail memoryTail') (hcpuKept : k ≠ .cpuSpike → cpuTail' = cpuTail)
    (hmemoryKept : k ≠ .memoryLeak → memoryTail' = memoryTail)
    (hl : policy.allocateCpu cpuMedian cpuTail = .ok l.cpu ∧
      policy.allocateMemory memoryMedian memoryTail = .ok l.memory)
    (hl' : policy.allocateCpu cpuMedian cpuTail' = .ok l'.cpu ∧
      policy.allocateMemory memoryMedian memoryTail' = .ok l'.memory) : l.Raised k l' where
  cpuRequest := request_eq hl.1 hl'.1
  memoryRequest := request_eq hl.2 hl'.2
  cpuLimit := limit_mono_of_tail (hp.cpu hcpu) hl.1 hl'.1
  memoryLimit := limit_mono_of_tail (hp.memory hmemory) hl.2 hl'.2
  cpuKept hk := by
    have h := hl'.1
    rw [hcpuKept hk, hl.1] at h
    rw [Except.ok.inj h]
  memoryKept hk := by
    have h := hl'.2
    rw [hmemoryKept hk, hl.2] at h
    rw [Except.ok.inj h]

theorem labelPoint_raised (hp : policy.Increasing) {k : Anomaly} {u v : Usage α} (huv : u.Raised k v)
    {c c' : α} {anomaly anomaly' : Option Anomaly} {l l' : Recommendation α}
    (hl : policy.labelPoint u c anomaly = .ok l) (hl' : policy.labelPoint v c' anomaly' = .ok l') :
    l.Raised k l' := by
  obtain ⟨hcpu, hmemory, -⟩ := labelPoint_eq_ok.mp hl
  obtain ⟨hcpu', hmemory', -⟩ := labelPoint_eq_ok.mp hl'
  rw [huv.cpuMedian] at hcpu'
  rw [huv.memoryMedian] at hmemory'
  exact raised_of_tails hp huv.cpuTail huv.memoryTail huv.cpuKept huv.memoryKept ⟨hcpu, hmemory⟩
    ⟨hcpu', hmemory'⟩

theorem label_raised (hp : policy.Increasing) {k : Anomaly} {t t' : Trace α}
    (h : List.Forall₂ (Usage.Raised k) t.steps t'.steps) {l l' : Recommendation α}
    (hl : policy.label t = .ok l) (hl' : policy.label t' = .ok l') : l.Raised k l' := by
  obtain ⟨hcpu, hmemory, -⟩ := label_eq_ok.mp hl
  obtain ⟨hcpu', hmemory', -⟩ := label_eq_ok.mp hl'
  rw [Trace.series_eq h fun _ _ huv => huv.cpuMedian] at hcpu'
  rw [Trace.series_eq h fun _ _ huv => huv.memoryMedian] at hmemory'
  refine raised_of_tails hp (Trace.maximum_series_lifts h fun _ _ huv => huv.cpuTail)
    (Trace.maximum_series_lifts h fun _ _ huv => huv.memoryTail) ?_ ?_ ⟨hcpu, hmemory⟩ ⟨hcpu', hmemory'⟩
  · intro hk
    rw [Trace.series_eq h fun _ _ huv => huv.cpuKept hk]
  · intro hk
    rw [Trace.series_eq h fun _ _ huv => huv.memoryKept hk]

end SizingPolicy

/-! ## Doubles -/

theorem Lifts.within_left {x y : Float} (h : Lifts x y) : Within 0.0 1.0 x :=
  ⟨h.1, LawfulOrder.le_trans h.2.1 h.2.2, by decide, by decide⟩

theorem Lifts.within_right {x y : Float} (h : Lifts x y) : Within 0.0 1.0 y :=
  ⟨LawfulOrder.le_trans h.1 h.2.1, h.2.2, by decide, by decide⟩

instance : Amplifies Float where
  le_mul_leak h₀ h₁ := Binary64.le_mul
    (Binary64.isFinite_of_between (by decide) (by decide) h₀ h₁) h₀ (by decide) (by decide)
  le_mul_spike h₀ h₁ := Binary64.le_mul
    (Binary64.isFinite_of_between (by decide) (by decide) h₀ h₁) h₀ (by decide) (by decide)

namespace SizingPolicy

/-- A factor that is not negative keeps the order, and so does what is added; the products may overflow. -/
theorem scaled_mono {x y factor offset : Float} (hx : x.isFinite = true) (hy : y.isFinite = true)
    (hy₀ : 0.0 ≤ y) (hf : factor.isFinite = true) (h₀ : 0.0 ≤ factor) (ho : offset.isFinite = true)
    (h : x ≤ y) : x * factor + offset ≤ y * factor + offset := by
  have hproducts : x * factor ≤ y * factor :=
    Binary64.mul_mono hx hy hf hf h (Binary64.defined_of_isFinite hf) (Within.real_nonneg hy hy₀)
      (Within.real_nonneg hf h₀)
  exact Binary64.add_mono_right hproducts ho

theorem headroom_mono {x y factor offset : Float} (hf : factor.isFinite = true) (h₀ : 0.0 ≤ factor)
    (ho : offset.isFinite = true) (hxy : Lifts x y) : x * factor + offset ≤ y * factor + offset :=
  scaled_mono hxy.within_left.isFinite hxy.within_right.isFinite hxy.within_right.lower hf h₀ ho hxy.2.1

theorem Finite.increasing {policy : SizingPolicy Float} (hp : policy.Finite)
    (hcpu : 0.0 ≤ policy.cpuLimitFactor) (hmemory : 0.0 ≤ policy.memoryLimitFactor) : policy.Increasing :=
  ⟨headroom_mono hp.cpuLimitFactor hcpu hp.limitOffset,
    headroom_mono hp.memoryLimitFactor hmemory hp.limitOffset⟩

theorem standard_increasing : (standard : SizingPolicy Float).Increasing :=
  standard_finite.increasing (by decide) (by decide)

end SizingPolicy

end WorkloadSynth
