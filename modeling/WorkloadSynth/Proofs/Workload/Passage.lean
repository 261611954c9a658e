import WorkloadSynth.Proofs.Workload.Exact
import Mathlib.Algebra.Order.Floor.Ring
import Mathlib.Tactic.Ring

/-!
# The passage of time in exact arithmetic

Where nothing is rounded, wrapping a value leaves its fractional part.  So moving a moment by some steps and
then by some more is moving it by all of them at once: the whole numbers that were wrapped away in between
are wrapped away in the end.  The clock reads the same again after whole weeks and at no other time, while
the age only grows.
-/

set_option autoImplicit false

namespace WorkloadSynth

class ExactRemainder (K : Type) [Field K] [LinearOrder K] [ElementaryFunctions K] : Prop where
  abs_lt_one (x : K) : |ElementaryFunctions.fraction x| < 1
  whole (x : K) : ∃ n : ℤ, x - ElementaryFunctions.fraction x = n

section

variable {K : Type} [Field K] [LinearOrder K] [IsStrictOrderedRing K] [ElementaryFunctions K]

namespace Moment

structure Wrapped (m : Moment K) : Prop where
  hour : 0 ≤ m.hour ∧ m.hour < 1
  day : 0 ≤ m.day ∧ m.day < 1

theorem relativeAge_le_of_age {m m' : Moment K} (h : m.ageDays ≤ m'.ageDays) :
    m.relativeAge ≤ m'.relativeAge := by
  have hfull : (0 : K) ≤ fullAgeDays := by
    rw [fullAgeDays]
    norm_num
  exact Scalar.confine_mono LawfulOrder.zero_le_one (div_le_div_of_nonneg_right h hfull)

theorem relativeAge_mem_unit (m : Moment K) : 0 ≤ m.relativeAge ∧ m.relativeAge ≤ 1 := by
  have hmem := Scalar.confineUnit_mem (le_refl (m.ageDays / fullAgeDays))
  norm_num at hmem
  exact hmem

end Moment

variable [FloorRing K]

/-- The remainder may be negative, and then one is added: either way the fractional part is left. -/
theorem Scalar.wrapUnit_eq_fract [ExactRemainder K] (x : K) : wrapUnit x = Int.fract x := by
  obtain ⟨n, hn⟩ := ExactRemainder.whole x
  obtain ⟨hlow, hhigh⟩ := abs_lt.mp (ExactRemainder.abs_lt_one x)
  change x - fraction x = n at hn
  change -1 < fraction x at hlow
  change fraction x < 1 at hhigh
  have hzero : (0.0 : K) = 0 := by norm_num
  have hone : (1.0 : K) = 1 := by norm_num
  symm
  simp only [Int.fract_eq_iff, wrapUnit, hzero, hone]
  split_ifs with hneg
  · refine ⟨by linarith, by linarith, n - 1, ?_⟩
    push_cast
    linarith
  · exact ⟨not_lt.mp hneg, hhigh, n, hn⟩

theorem fract_fract_add (x y : K) : Int.fract (Int.fract x + y) = Int.fract (x + y) := by
  rw [Int.fract_eq_fract]
  refine ⟨-⌊x⌋, ?_⟩
  rw [Int.fract]
  push_cast
  ring

namespace Moment

variable [ExactRemainder K] (m : Moment K) (stepHours : K)

theorem later_eq (steps : ℕ) : m.later steps stepHours =
    ⟨Int.fract (m.hour + steps * stepHours / 24), Int.fract (m.day + steps * stepHours / 168),
      m.ageDays + steps * stepHours / 24⟩ := by
  have hcount : (Scalar.ofNat steps : K) = steps := rfl
  have hday : (24.0 : K) = 24 := by norm_num
  have hweek : (168.0 : K) = 168 := by norm_num
  simp only [later, Scalar.wrapUnit_eq_fract, hcount, hday, hweek]

theorem wrapped_later (steps : ℕ) : (m.later steps stepHours).Wrapped := by
  rw [later_eq]
  exact ⟨⟨Int.fract_nonneg _, Int.fract_lt_one _⟩, ⟨Int.fract_nonneg _, Int.fract_lt_one _⟩⟩

theorem later_add (i j : ℕ) : m.later (i + j) stepHours = (m.later i stepHours).later j stepHours := by
  have hsum (x period : K) : x + (i + j : ℕ) * stepHours / period =
      x + i * stepHours / period + j * stepHours / period := by
    push_cast
    ring
  simp only [later_eq, fract_fract_add, hsum]

theorem later_zero_eq_iff : m.later 0 stepHours = m ↔ m.Wrapped := by
  constructor
  · intro h
    rw [← h]
    exact m.wrapped_later stepHours 0
  · intro h
    have hhour := Int.fract_eq_self.mpr h.hour
    have hday := Int.fract_eq_self.mpr h.day
    rw [later_eq]
    simp only [Nat.cast_zero, zero_mul, zero_div, add_zero, hhour, hday]

theorem later_reads_same_iff (h : m.Wrapped) (steps : ℕ) :
    ((m.later steps stepHours).hour = m.hour ∧ (m.later steps stepHours).day = m.day) ↔
      ∃ weeks : ℤ, steps * stepHours = weeks * 168 := by
  have hhour := Int.fract_eq_self.mpr h.hour
  have hday := Int.fract_eq_self.mpr h.day
  rw [later_eq]
  constructor
  · rintro ⟨-, hsame⟩
    obtain ⟨weeks, hweeks⟩ := Int.fract_eq_fract.mp (hsame.trans hday.symm)
    refine ⟨weeks, ?_⟩
    rw [← hweeks]
    ring
  · rintro ⟨weeks, hweeks⟩
    have hdays : steps * stepHours / 24 = ((7 * weeks : ℤ) : K) := by
      rw [hweeks]
      push_cast
      ring
    have hwhole : steps * stepHours / 168 = (weeks : K) := by
      rw [hweeks]
      ring
    refine ⟨?_, ?_⟩
    · rw [hdays, Int.fract_add_intCast, hhour]
    · rw [hwhole, Int.fract_add_intCast, hday]

theorem ageDays_strictMono (hhours : 0 < stepHours) :
    StrictMono fun steps => (m.later steps stepHours).ageDays := by
  intro i j hij
  have hsteps : (i : K) < j := Nat.cast_lt.mpr hij
  have hscaled := mul_lt_mul_of_pos_right hsteps hhours
  simp only [later_eq]
  linarith

/-- Moving moments is an action of the number of steps, whatever a step lasts and wherever the moment lies: some
steps and then some more are all of them at once, and no steps leave just the wrapped moments as they are.  Every
moment that is reached is wrapped and has an age on the scale to one.  A wrapped moment has its hour and day again
after a whole number of weeks and only then.  Where steps take time, age rises at each of them, and the age on the
scale to one never falls. -/
theorem steps_act_on_moments (start : Moment K) (stepHours : K) :
    (∀ i j, start.later (i + j) stepHours = (start.later i stepHours).later j stepHours) ∧
      (start.later 0 stepHours = start ↔ start.Wrapped) ∧
      (∀ i, (start.later i stepHours).Wrapped ∧
        0 ≤ (start.later i stepHours).relativeAge ∧ (start.later i stepHours).relativeAge ≤ 1) ∧
      (start.Wrapped → ∀ i : ℕ,
        ((start.later i stepHours).hour = start.hour ∧ (start.later i stepHours).day = start.day) ↔
          ∃ weeks : ℤ, i * stepHours = weeks * 168) ∧
      (0 < stepHours → (StrictMono fun i => (start.later i stepHours).ageDays) ∧
        Monotone fun i => (start.later i stepHours).relativeAge) := by
  refine ⟨start.later_add stepHours, start.later_zero_eq_iff stepHours, fun i => ?_,
    start.later_reads_same_iff stepHours, fun hhours => ?_⟩
  · exact ⟨start.wrapped_later stepHours i, relativeAge_mem_unit _⟩
  · have hages := start.ageDays_strictMono stepHours hhours
    exact ⟨hages, fun i j hij => relativeAge_le_of_age (hages.monotone hij)⟩

end Moment

end

theorem exactRemainder_real : letI : ElementaryFunctions ℝ := realFunctions
    ExactRemainder ℝ := by
  let _ : ElementaryFunctions ℝ := realFunctions
  have hremainder (x : ℝ) :
      ElementaryFunctions.fraction x = if x < 0 then -Int.fract (-x) else Int.fract x := by
    change SignType.sign x * Int.fract |x| = _
    rcases lt_trichotomy x 0 with hneg | rfl | hpos
    · simp [hneg, abs_of_neg]
    · simp
    · simp [hpos, hpos.not_gt, abs_of_pos]
  constructor
  · intro x
    rw [hremainder]
    split_ifs
    · rw [abs_neg, abs_of_nonneg (Int.fract_nonneg _)]
      exact Int.fract_lt_one _
    · rw [abs_of_nonneg (Int.fract_nonneg _)]
      exact Int.fract_lt_one _
  · intro x
    rw [hremainder]
    split_ifs
    · refine ⟨-⌊-x⌋, ?_⟩
      rw [Int.fract]
      push_cast
      ring
    · exact ⟨⌊x⌋, Int.self_sub_fract x⟩

theorem Moment.half_days_of_a_week :
    letI : ElementaryFunctions ℝ := realFunctions
    let start : Moment ℝ := ⟨1 / 2, 9 / 10, 29⟩
    ExactRemainder ℝ ∧ start.Wrapped ∧ (0 : ℝ) < 12 ∧ start.later 0 12 = start ∧
      start.later 14 12 = (start.later 5 12).later 9 12 ∧
      ((start.later 14 12).hour = 1 / 2 ∧ (start.later 14 12).day = 9 / 10) ∧
      (start.later 13 12).ageDays < (start.later 14 12).ageDays ∧
      (start.later 13 12).relativeAge ≤ (start.later 14 12).relativeAge ∧ (start.later 14 12).relativeAge ≤ 1 := by
  let _ : ElementaryFunctions ℝ := realFunctions
  have hremainder : ExactRemainder ℝ := exactRemainder_real
  intro start
  have hstart : start.Wrapped := by
    constructor <;> norm_num [start]
  have hhours : (0 : ℝ) < 12 := by norm_num
  obtain ⟨hadd, hzero, hreached, hsame, hages⟩ := start.steps_act_on_moments 12
  have hweek : ∃ weeks : ℤ, ((14 : ℕ) : ℝ) * 12 = weeks * 168 := ⟨1, by norm_num⟩
  exact ⟨hremainder, hstart, hhours, hzero.mpr hstart, hadd 5 9, (hsame hstart 14).mpr hweek,
    (hages hhours).1 (by norm_num), (hages hhours).2 (by norm_num), (hreached 14).2.2⟩

end WorkloadSynth
