import WorkloadSynth.Proofs.Number.Order
import WorkloadSynth.Workload.Usage

/-!
# Bounding a usage

Where the lower percentiles are in order already, `Usage.bounded` reaches no empty interval: it keeps
them and brings the other readings into range (`Usage.bounded_of_rising`).  If none of those readings is
undefined the result is well-formed (`Usage.trimmed_wellFormed`).
-/

set_option autoImplicit false

namespace WorkloadSynth

variable {α : Type} [Scalar α]

namespace Quantiles

def Rising (q : Quantiles α) : Prop := 0.0 ≤ q.p50 ∧ q.p50 ≤ q.p95 ∧ q.p95 ≤ 1.0

def trimmed (q : Quantiles α) : Quantiles α := { q with p99 := Scalar.confine q.p99 q.p95 1.0 }

variable [LawfulOrder α] {q : Quantiles α}

theorem Ordered.rising (h : q.Ordered) : q.Rising :=
  ⟨h.1, h.2.2.1, LawfulOrder.le_trans h.2.2.2.1 h.2.2.2.2⟩

theorem bounded_of_rising (h : q.Rising) : q.bounded = .ok q.trimmed := by
  obtain ⟨h₀, h₁, h₂⟩ := h
  have hp50 : Scalar.confineUnit q.p50 = q.p50 :=
    Scalar.confine_eq_self h₀ (LawfulOrder.le_trans h₁ h₂)
  have hp95 : Scalar.clamp q.p95 q.p50 1.0 = .ok q.p95 := by
    rw [Scalar.clamp_of_le (LawfulOrder.le_trans h₁ h₂), Scalar.confine_eq_self h₁ h₂]
  have hp99 : Scalar.clamp q.p99 q.p95 1.0 = .ok (Scalar.confine q.p99 q.p95 1.0) :=
    Scalar.clamp_of_le h₂
  simp only [bounded, hp50, hp95, hp99, bind, Except.bind, pure, Except.pure]
  rfl

theorem trimmed_ordered (h : q.Rising) (h₉₉ : q.p99 ≤ q.p99) : q.trimmed.Ordered := by
  obtain ⟨h₀, h₁, h₂⟩ := h
  obtain ⟨hlow, hhigh⟩ := Scalar.confine_mem h₉₉ h₂
  exact ⟨h₀, LawfulOrder.le_trans h₁ h₂, h₁, hlow, hhigh⟩

end Quantiles

namespace Usage

/-- Every reading in its range; the lower percentiles stay what they are. -/
def trimmed (u : Usage α) : Usage α :=
  { u with
    cpu := u.cpu.trimmed
    memory := u.memory.trimmed
    cpuVariance := Scalar.confineUnit u.cpuVariance
    memoryTrend := Scalar.confine u.memoryTrend (-1.0) 1.0
    throttle := Scalar.confineUnit u.throttle }

structure Readable (u : Usage α) : Prop where
  cpu : u.cpu.p99 ≤ u.cpu.p99
  memory : u.memory.p99 ≤ u.memory.p99
  cpuVariance : u.cpuVariance ≤ u.cpuVariance
  memoryTrend : u.memoryTrend ≤ u.memoryTrend
  throttle : u.throttle ≤ u.throttle

variable [LawfulOrder α] {u : Usage α}

theorem bounded_of_rising (hc : u.cpu.Rising) (hm : u.memory.Rising) : u.bounded = .ok u.trimmed := by
  simp only [bounded, Quantiles.bounded_of_rising hc, Quantiles.bounded_of_rising hm, bind, Except.bind,
    pure, Except.pure]
  rfl

theorem trimmed_wellFormed (hc : u.cpu.Rising) (hm : u.memory.Rising) (h : u.Readable) :
    u.trimmed.WellFormed :=
  ⟨Quantiles.trimmed_ordered hc h.cpu, Quantiles.trimmed_ordered hm h.memory,
    Scalar.confineUnit_mem h.cpuVariance,
    Scalar.confine_mem h.memoryTrend LawfulOrder.neg_one_le_one, Scalar.confineUnit_mem h.throttle⟩

end Usage

end WorkloadSynth
