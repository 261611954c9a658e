import WorkloadSynth.Proofs.Binary64.Interval
import WorkloadSynth.Proofs.Workload.Usage

/-!
# Bounding any usage at all

Bounding a resource stops at an empty interval only where one of its two lower percentiles is undefined.
Otherwise it comes to `Quantiles.leveled`: every percentile in the unit interval and above the one before it.
An undefined reading passes through a clamp, so the result is well-formed if none of the other readings was
undefined (`Usage.wellFormed_leveled`), and in any case bounding it again changes nothing.
-/

set_option autoImplicit false

namespace WorkloadSynth

variable {α : Type} [Scalar α]

namespace Quantiles

def leveled (q : Quantiles α) : Quantiles α where
  p50 := Scalar.confineUnit q.p50
  p95 := Scalar.confine q.p95 (Scalar.confineUnit q.p50) 1.0
  p99 := Scalar.confine q.p99 (Scalar.confine q.p95 (Scalar.confineUnit q.p50) 1.0) 1.0

def Founded (q : Quantiles α) : Prop := q.p50 ≤ q.p50 ∧ q.p95 ≤ q.p95

variable [LawfulOrder α] {q : Quantiles α}

theorem Founded.rising (h : q.Founded) : q.leveled.Rising := by
  obtain ⟨hlow, hhigh⟩ := Scalar.confineUnit_mem h.1
  exact ⟨hlow, Scalar.confine_mem h.2 hhigh⟩

theorem bounded_of_founded (h : q.Founded) : q.bounded = .ok q.leveled := by
  obtain ⟨-, hmedian⟩ := Scalar.confineUnit_mem h.1
  obtain ⟨-, hmiddle⟩ := Scalar.confine_mem h.2 hmedian
  simp only [bounded, Scalar.clamp_of_le hmedian, Scalar.clamp_of_le hmiddle, bind, Except.bind, pure,
    Except.pure]
  rfl

/-- The first clamp whose lower end is undefined is the last one that is reached. -/
theorem bounded_of_not_founded (h : ¬ q.Founded) : q.bounded = .error .outOfRange := by
  rw [eq_outOfRange_iff]
  rintro ⟨r, hr⟩
  obtain ⟨p95, hp95, hr⟩ := bind_eq_ok.mp hr
  obtain ⟨p99, hp99, -⟩ := bind_eq_ok.mp hr
  obtain ⟨hmedian, rfl⟩ := Scalar.clamp_eq_ok.mp hp95
  obtain ⟨hmiddle, -⟩ := Scalar.clamp_eq_ok.mp hp99
  exact h ⟨Scalar.defined_of_confine (LawfulOrder.defined_left hmedian),
    Scalar.defined_of_confine (LawfulOrder.defined_left hmiddle)⟩

theorem bounded_eq_ok {r : Quantiles α} : q.bounded = .ok r ↔ q.Founded ∧ q.leveled = r := by
  by_cases h : q.Founded
  · rw [bounded_of_founded h]
    simp [h]
  · rw [bounded_of_not_founded h]
    simp [h]

theorem leveled_trimmed (h : q.Founded) : q.leveled.trimmed = q.leveled := by
  have hp99 : Scalar.confine q.leveled.p99 q.leveled.p95 1.0 = q.leveled.p99 :=
    Scalar.confine_confine h.rising.2.2
  rw [trimmed, hp99]

theorem leveled_ordered_iff (h : q.Founded) : q.leveled.Ordered ↔ q.p99 ≤ q.p99 := by
  constructor
  · intro hordered
    exact Scalar.defined_of_confine (LawfulOrder.defined_left hordered.2.2.2.2)
  · intro hp99
    rw [← leveled_trimmed h]
    have hmem := Scalar.confine_mem hp99 h.rising.2.2
    exact trimmed_ordered h.rising (LawfulOrder.defined_left hmem.2)

theorem Ordered.founded (h : q.Ordered) : q.Founded :=
  ⟨LawfulOrder.defined_right h.1, LawfulOrder.defined_right h.2.2.1⟩

theorem Ordered.leveled_eq (h : q.Ordered) : q.leveled = q := by
  obtain ⟨h₀, h₁, h₂, h₃, h₄⟩ := h
  have hmiddle : q.p95 ≤ 1.0 := LawfulOrder.le_trans h₃ h₄
  have hp50 : Scalar.confineUnit q.p50 = q.p50 := Scalar.confine_eq_self h₀ h₁
  have hp95 : Scalar.confine q.p95 q.p50 1.0 = q.p95 := Scalar.confine_eq_self h₂ hmiddle
  have hp99 : Scalar.confine q.p99 q.p95 1.0 = q.p99 := Scalar.confine_eq_self h₃ h₄
  rw [leveled, hp50, hp95, hp99]

end Quantiles

namespace Usage

def leveled (u : Usage α) : Usage α :=
  { u with
    cpu := u.cpu.leveled
    memory := u.memory.leveled
    cpuVariance := Scalar.confineUnit u.cpuVariance
    memoryTrend := Scalar.confine u.memoryTrend (-1.0) 1.0
    throttle := Scalar.confineUnit u.throttle }

def Founded (u : Usage α) : Prop := u.cpu.Founded ∧ u.memory.Founded

variable [LawfulOrder α] {u v : Usage α}

theorem bounded_eq_ok_iff : u.bounded = .ok v ↔ u.Founded ∧ u.leveled = v := by
  unfold bounded
  simp only [bind_eq_ok, Quantiles.bounded_eq_ok]
  constructor
  · rintro ⟨_, ⟨hcpu, rfl⟩, _, ⟨hmemory, rfl⟩, ⟨⟩⟩
    exact ⟨⟨hcpu, hmemory⟩, rfl⟩
  · rintro ⟨⟨hcpu, hmemory⟩, rfl⟩
    exact ⟨_, ⟨hcpu, rfl⟩, _, ⟨hmemory, rfl⟩, rfl⟩

theorem bounded_eq_error_iff : u.bounded = .error .outOfRange ↔ ¬ u.Founded := by
  rw [eq_outOfRange_iff]
  simp only [bounded_eq_ok_iff]
  exact not_congr ⟨fun ⟨_, h, _⟩ => h, fun h => ⟨_, h, rfl⟩⟩

theorem wellFormed_leveled (h : u.Founded) : u.leveled.WellFormed ↔ u.Readable := by
  constructor
  · rintro ⟨hcpu, hmemory, hvariance, htrend, hthrottle⟩
    exact ⟨(Quantiles.leveled_ordered_iff h.1).mp hcpu, (Quantiles.leveled_ordered_iff h.2).mp hmemory,
      Scalar.defined_of_confine (LawfulOrder.defined_right hvariance.1),
      Scalar.defined_of_confine (LawfulOrder.defined_right htrend.1),
      Scalar.defined_of_confine (LawfulOrder.defined_right hthrottle.1)⟩
  · intro hr
    exact ⟨(Quantiles.leveled_ordered_iff h.1).mpr hr.cpu, (Quantiles.leveled_ordered_iff h.2).mpr hr.memory,
      Scalar.confineUnit_mem hr.cpuVariance,
      Scalar.confine_mem hr.memoryTrend LawfulOrder.neg_one_le_one, Scalar.confineUnit_mem hr.throttle⟩

theorem bounded_leveled (h : u.Founded) : u.leveled.bounded = .ok u.leveled := by
  have htrimmed : u.leveled.trimmed = u.leveled := by
    have hcpu : u.leveled.cpu.trimmed = u.leveled.cpu := Quantiles.leveled_trimmed h.1
    have hmemory : u.leveled.memory.trimmed = u.leveled.memory := Quantiles.leveled_trimmed h.2
    have hvariance : Scalar.confineUnit u.leveled.cpuVariance = u.leveled.cpuVariance :=
      Scalar.confine_confine LawfulOrder.zero_le_one
    have htrend : Scalar.confine u.leveled.memoryTrend (-1.0) 1.0 = u.leveled.memoryTrend :=
      Scalar.confine_confine LawfulOrder.neg_one_le_one
    have hthrottle : Scalar.confineUnit u.leveled.throttle = u.leveled.throttle :=
      Scalar.confine_confine LawfulOrder.zero_le_one
    rw [trimmed, hcpu, hmemory, hvariance, htrend, hthrottle]
  rw [bounded_of_rising h.1.rising h.2.rising, htrimmed]

theorem WellFormed.bounded_eq (h : u.WellFormed) : u.bounded = .ok u := by
  obtain ⟨hcpu, hmemory, hvariance, htrend, hthrottle⟩ := h
  have hleveled : u.leveled = u := by
    have hvariance : Scalar.confineUnit u.cpuVariance = u.cpuVariance :=
      Scalar.confine_eq_self hvariance.1 hvariance.2
    have htrend : Scalar.confine u.memoryTrend (-1.0) 1.0 = u.memoryTrend :=
      Scalar.confine_eq_self htrend.1 htrend.2
    have hthrottle : Scalar.confineUnit u.throttle = u.throttle :=
      Scalar.confine_eq_self hthrottle.1 hthrottle.2
    rw [leveled, hcpu.leveled_eq, hmemory.leveled_eq, hvariance, htrend, hthrottle]
  exact bounded_eq_ok_iff.mpr ⟨⟨hcpu.founded, hmemory.founded⟩, hleveled⟩

end Usage

/-! ## Doubles -/

theorem Binary64.isNaN_iff (x : Float) : x.isNaN = true ↔ ¬ x ≤ x := by
  rw [defined_iff, Bool.not_eq_false]
  rfl

theorem Binary64.defined_of_isNaN {x : Float} (h : x.isNaN = false) : x ≤ x := by
  by_contra hundefined
  exact Bool.false_ne_true (h.symm.trans ((isNaN_iff x).mpr hundefined))

namespace Usage

variable {u v : Usage Float}

theorem founded_iff : u.Founded ↔ ¬ (u.cpu.p50.isNaN = true ∨ u.cpu.p95.isNaN = true ∨
    u.memory.p50.isNaN = true ∨ u.memory.p95.isNaN = true) := by
  simp only [Founded, Quantiles.Founded, Binary64.isNaN_iff]
  tauto

theorem readable_iff : u.Readable ↔ ¬ (u.cpu.p99.isNaN = true ∨ u.memory.p99.isNaN = true ∨
    u.cpuVariance.isNaN = true ∨ u.memoryTrend.isNaN = true ∨ u.throttle.isNaN = true) := by
  have hfields : u.Readable ↔ u.cpu.p99 ≤ u.cpu.p99 ∧ u.memory.p99 ≤ u.memory.p99 ∧
      u.cpuVariance ≤ u.cpuVariance ∧ u.memoryTrend ≤ u.memoryTrend ∧ u.throttle ≤ u.throttle :=
    ⟨fun ⟨h₁, h₂, h₃, h₄, h₅⟩ => ⟨h₁, h₂, h₃, h₄, h₅⟩, fun ⟨h₁, h₂, h₃, h₄, h₅⟩ => ⟨h₁, h₂, h₃, h₄, h₅⟩⟩
  rw [hfields]
  simp only [Binary64.isNaN_iff]
  tauto

/-- Bounding stops exactly at an undefined lower percentile.  Whenever it gives a result, this is
well-formed unless another reading that has a range was undefined, the time of the step is the same, and
bounding the result again gives it back; so does bounding anything that is well-formed already. -/
theorem bounded_repairs (u : Usage Float) :
    (u.bounded = .error .outOfRange ↔ u.cpu.p50.isNaN = true ∨ u.cpu.p95.isNaN = true ∨
      u.memory.p50.isNaN = true ∨ u.memory.p95.isNaN = true) ∧
    (∀ v, u.bounded = .ok v →
      (v.WellFormed ↔ ¬ (u.cpu.p99.isNaN = true ∨ u.memory.p99.isNaN = true ∨
        u.cpuVariance.isNaN = true ∨ u.memoryTrend.isNaN = true ∨ u.throttle.isNaN = true)) ∧
      (v.hour = u.hour ∧ v.day = u.day ∧ v.age = u.age) ∧ v.bounded = .ok v) ∧
    (u.WellFormed → u.bounded = .ok u) := by
  refine ⟨?_, ?_, WellFormed.bounded_eq⟩
  · rw [bounded_eq_error_iff, founded_iff, not_not]
  · intro v hv
    obtain ⟨hfounded, rfl⟩ := bounded_eq_ok_iff.mp hv
    refine ⟨?_, ⟨rfl, rfl, rfl⟩, bounded_leveled hfounded⟩
    rw [wellFormed_leveled hfounded, readable_iff]

theorem bounded_repairs_infinite :
    let wild : Usage Float := ⟨⟨1.0 / 0.0, 0.25, -3.0⟩, ⟨0.3, 0.2, 0.25⟩, 7.0, -2.0, 0.0 / 0.0, 5.0, -0.0, 0.5⟩
    let tame : Usage Float := ⟨⟨1.0, 1.0, 1.0⟩, ⟨0.3, 0.3, 0.3⟩, 1.0, -1.0, 0.0 / 0.0, 5.0, -0.0, 0.5⟩
    let calm : Usage Float := ⟨⟨0.1, 0.2, 0.3⟩, ⟨0.3, 0.3, 0.3⟩, 0.0, -1.0, 1.0, 5.0, -0.0, 0.5⟩
    wild.bounded = .ok tame ∧ ¬ tame.WellFormed ∧ tame.bounded = .ok tame ∧ calm.bounded = .ok calm := by
  intro wild tame calm
  obtain ⟨-, hbounded, -⟩ := bounded_repairs wild
  obtain ⟨-, -, hcalm⟩ := bounded_repairs calm
  have hwild : wild.bounded = .ok tame := by decide
  obtain ⟨hwellFormed, -, hagain⟩ := hbounded tame hwild
  refine ⟨hwild, ?_, hagain, hcalm (by decide)⟩
  rw [hwellFormed, not_not]
  exact .inr (.inr (.inr (.inr (by decide))))

end Usage

end WorkloadSynth
