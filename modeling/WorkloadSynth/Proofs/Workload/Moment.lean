import WorkloadSynth.Proofs.Binary64.Conversion
import WorkloadSynth.Workload.Moment

/-!
# Moments that lie ahead

A moment in range stays in range however many steps it is moved (`Moment.later_inRange`), as long as
their number fits a word and a step is no longer than a week.  At such a moment the seasonal factor is
bounded and the relative age lies in the unit interval.
-/

set_option autoImplicit false

namespace WorkloadSynth

open Binary64 (Within largest)

structure Moment.InRange (m : Moment Float) : Prop where
  hour : 0.0 ≤ m.hour ∧ m.hour < 1.0
  day : 0.0 ≤ m.day ∧ m.day < 1.0
  age : 0.0 ≤ m.ageDays ∧ m.ageDays.isFinite = true

namespace Moment

theorem within_fraction {x : Float} (h : 0.0 ≤ x ∧ x < 1.0) : Within 0.0 1.0 x :=
  ⟨h.1, Scalar.le_of_lt h.2, rfl, rfl⟩

theorem InRange.within_age {m : Moment Float} (h : m.InRange) : Within 0.0 largest m.ageDays :=
  Binary64.within_largest h.age.2 h.age.1

theorem within_elapsed {n : ℕ} {stepHours : Float} (hn : n ≤ 2 ^ 64) (hs : Within 0.0 168.0 stepHours) :
    Within 0.0 4e21 (Scalar.ofNat n * stepHours) :=
  (Binary64.within_ofNat hn).mul hs (by decide)

/-- However many steps a word can count, a moment in range stays in range. -/
theorem later_inRange {m : Moment Float} (hm : m.InRange) {n : ℕ} {stepHours : Float} (hn : n ≤ 2 ^ 64)
    (hs : Within 0.0 168.0 stepHours) : (m.later n stepHours).InRange := by
  have helapsed := within_elapsed hn hs
  have hours : Within 0.0 4e20 (Scalar.ofNat n * stepHours / 24.0) := helapsed.div (by decide)
  have days : Within 0.0 4e20 (Scalar.ofNat n * stepHours / 168.0) := helapsed.div (by decide)
  have hhour : Within 0.0 1e21 (m.hour + Scalar.ofNat n * stepHours / 24.0) :=
    (within_fraction hm.hour).add hours (by decide)
  have hday : Within 0.0 1e21 (m.day + Scalar.ofNat n * stepHours / 168.0) :=
    (within_fraction hm.day).add days (by decide)
  have hage : Within 0.0 largest (m.ageDays + Scalar.ofNat n * stepHours / 24.0) :=
    hm.within_age.add hours (by decide +kernel)
  exact ⟨Binary64.wrapUnit_mem hhour.isFinite hhour.lower,
    Binary64.wrapUnit_mem hday.isFinite hday.lower, hage.lower, hage.isFinite⟩

theorem relativeAge_mem {m : Moment Float} (hm : m.InRange) :
    0.0 ≤ m.relativeAge ∧ m.relativeAge ≤ 1.0 := by
  have hshare : Within 0.0 largest (m.ageDays / fullAgeDays) := hm.within_age.div (by decide)
  exact Scalar.confineUnit_mem hshare.defined

end Moment

namespace Season

theorem within_daily {hour factor : Float} (hh : 0.0 ≤ hour ∧ hour < 1.0)
    (hf : Within (-1.0) 1.0 factor) : Within (-2.0) 2.0 (daily hour factor) := by
  have hpeak : Within 0.5 0.6 (peakHour : Float) := by decide
  have hturn : Within (-8.0) 8.0 (2.0 * pi : Float) := by decide
  have hshift : Within (-1.0) 1.0 (hour - peakHour) :=
    (Moment.within_fraction hh).sub hpeak (by decide)
  have hphase : Within (-2.0) 2.0 (hour - peakHour + 0.25) :=
    hshift.add (Within.self (by decide)) (by decide)
  have hangle : Within (-16.0) 16.0 (2.0 * pi * (hour - peakHour + 0.25)) :=
    hturn.mul_size hphase (by decide)
  have hswing : Within (-1.0) 1.0 (factor * Scalar.sine (2.0 * pi * (hour - peakHour + 0.25))) :=
    hf.mul_size (Binary64.within_sine hangle.isFinite) (by decide)
  exact (Within.self (by decide)).add hswing (by decide)

theorem within_weekly (day : Float) {factor : Float} (hf : Within (-1.0) 1.0 factor) :
    Within (-2.0) 2.0 (weekly day factor) := by
  have hless : Within (-1.0) 1.0 (0.3 * factor) :=
    (by decide : Within (-1.0) 1.0 (0.3 : Float)).mul_size hf (by decide)
  have hmore : Within (-1.0) 1.0 (0.1 * factor) :=
    (by decide : Within (-1.0) 1.0 (0.1 : Float)).mul_size hf (by decide)
  unfold weekly
  split_ifs
  · exact (Within.self (by decide)).sub hless (by decide)
  · exact (Within.self (by decide)).add hmore (by decide)

theorem within_load (day : Float) {hour factor : Float} (hh : 0.0 ≤ hour ∧ hour < 1.0)
    (hf : Within (-1.0) 1.0 factor) : Within (-4.0) 4.0 (load hour day factor) := by
  have hhalf : Within (-1.0) 1.0 (factor / 2.0) := hf.div (by decide)
  exact (within_daily hh hf).mul_size (within_weekly day hhalf) (by decide)

end Season

end WorkloadSynth
