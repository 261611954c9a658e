import WorkloadSynth.Proofs.Binary64.Error
import WorkloadSynth.Proofs.Json.Scale

/-!
# How far a reread double lies off

The significand of a decimal, the power of ten and their product or quotient are rounded once each, and a very
small number is divided twice.  What comes out is finite and lies within `2 ^ (-50)` of the double that was
written, relative to it, or within the two least positive doubles of it (`reread_near`).
-/

set_option autoImplicit false

namespace WorkloadSynth.Json

open Binary64
open Decimal (Scaled shortest)

namespace Number

/-! ## The factors -/

theorem closeTo_of_one_le {x : Float} {r : ℝ} (hx : x.isFinite = true) (h : value x = nearestValue r)
    (hr : 1 ≤ r) : CloseTo (1 / 2 ^ 53) 0 (real x) r := by
  rw [real_nearest hx h (zero_le_one.trans hr)]
  exact closeTo_roundedSize_normal ((zpow_le_one_of_nonpos₀ one_le_two (by norm_num)).trans hr)

theorem closeTo_significand {s : ℕ} (hs : 0 < s) (h : s ≤ 10 ^ 17) :
    (ofNat s).isFinite = true ∧ CloseTo (1 / 2 ^ 53) 0 (real (ofNat s)) s := by
  have hfinite := isFinite_ofNat_of_le h (by decide)
  exact ⟨hfinite, closeTo_of_one_le hfinite (ofNat_spec s).2 (by exact_mod_cast hs)⟩

theorem closeTo_powerOfTen {n : ℕ} (h : n ≤ 308) : CloseTo (1 / 2 ^ 53) 0 (real (powerOfTen n)) (10 ^ n : ℕ) :=
  closeTo_of_one_le (one_le_powerOfTen h).1 (powerOfTen_spec (by omega)).2
    (by exact_mod_cast Nat.one_le_pow _ _ (by norm_num))

/-! ## Products and quotients -/

theorem closeTo_product {s n : ℕ} (hs : 0 < s) (h : s ≤ 10 ^ 17) (hn : n ≤ 308)
    (hfinite : (ofNat s * powerOfTen n).isFinite = true) :
    CloseTo (4 / 2 ^ 53) 1 (real (ofNat s * powerOfTen n)) (s * (10 ^ n : ℕ)) := by
  obtain ⟨hfs, hclose⟩ := closeTo_significand hs h
  obtain ⟨hfp, hp⟩ := one_le_powerOfTen hn
  have hexact := hclose.mul (closeTo_powerOfTen hn) (by positivity) (by positivity) (by norm_num)
  have hnonneg : 0 ≤ real (ofNat s) * real (powerOfTen n) :=
    mul_nonneg (real_ofNat_nonneg hfs) (zero_le_one.trans hp)
  have hrounded :
      CloseTo (1 / 2 ^ 53) 1 (real (ofNat s * powerOfTen n)) (real (ofNat s) * real (powerOfTen n)) := by
    rw [real_nearest hfinite (mul_spec hfs hfp).2 hnonneg]
    exact closeTo_roundedSize hnonneg
  exact (hrounded.trans hexact (by norm_num)).mono (by positivity) (by norm_num) (by norm_num)

theorem closeTo_quotient {x : Float} {w n k : ℝ} {p : ℕ} (hx : x.isFinite = true) (hx₀ : 0 ≤ real x) (hw : 0 ≤ w)
    (hp : p ≤ 308) (hn : 0 ≤ n) (hk : 0 ≤ k) (h : CloseTo (n / 2 ^ 53) k (real x) w) (hn' : n ≤ 4) :
    (x / powerOfTen p).isFinite = true ∧ 0 ≤ real (x / powerOfTen p) ∧
      CloseTo ((n + 5 / 2) / 2 ^ 53) (1 + 3 / 2 * k) (real (x / powerOfTen p)) (w / (10 ^ p : ℕ)) := by
  obtain ⟨hfp, hp₁⟩ := one_le_powerOfTen hp
  have hp₀ : 0 < real (powerOfTen p) := zero_lt_one.trans_le hp₁
  obtain ⟨hdefined, hvalue⟩ := div_spec hx hfp hp₀.ne'
  have hnonneg : 0 ≤ real x / real (powerOfTen p) := div_nonneg hx₀ hp₀.le
  have hlow := Within.zero_le_of_value hdefined hvalue hnonneg
  have hhigh : x / powerOfTen p ≤ x := by
    rw [le_iff, hvalue, ← nearestValue_real hx]
    exact ⟨hdefined, defined_of_isFinite hx, nearestValue_mono (div_le_self hx₀ hp₁)⟩
  have hfinite := isFinite_of_between (by decide) hx hlow hhigh
  refine ⟨hfinite, Within.real_nonneg hfinite hlow, ?_⟩
  have hrounded : CloseTo (1 / 2 ^ 53) 1 (real (x / powerOfTen p)) (real x / real (powerOfTen p)) := by
    rw [real_nearest hfinite hvalue hnonneg]
    exact closeTo_roundedSize hnonneg
  have hexact :=
    h.div (closeTo_powerOfTen hp) hw hp₁ (by positivity) (by positivity) (by norm_num) (by norm_num) hk
  have hshare : (n / 2 ^ 53 + 1 / 2 ^ 53) / (1 - 1 / 2 ^ 53) = (n + 1) * (1 / (2 ^ 53 - 1)) := by
    field_simp
  refine (hrounded.trans hexact (by norm_num)).mono (by positivity) ?_ ?_
  · rw [hshare]
    linarith
  · linarith

/-- The quotient by a power of ten, which takes two divisions where the power goes beyond the doubles. -/
theorem closeTo_divideBy {s p : ℕ} (hs : 0 < s) (h : s ≤ 10 ^ 17) (hp : p ≤ 616) :
    (divideBy 4 (ofNat s) p).isFinite = true ∧
      CloseTo (6 / 2 ^ 53) (5 / 2) (real (divideBy 4 (ofNat s) p)) (s / (10 ^ p : ℕ)) := by
  obtain ⟨hfs, hclose⟩ := closeTo_significand hs h
  have hs₀ := real_ofNat_nonneg hfs
  rcases Nat.lt_or_ge 308 p with hlarge | hsmall
  · obtain ⟨hfq, hq₀, hquotient⟩ :=
      closeTo_quotient hfs hs₀ s.cast_nonneg le_rfl zero_le_one le_rfl hclose (by norm_num)
    have hnonneg : (0 : ℝ) ≤ s / (10 ^ 308 : ℕ) := by positivity
    obtain ⟨hfinite, -, hsecond⟩ := closeTo_quotient (p := p - 308) hfq hq₀ hnonneg (by omega) (by norm_num)
      (by norm_num) hquotient (by norm_num)
    have hne : ¬ (ofNat s == 0.0) = true := by
      intro hzero
      have hone : (1.0 : Float) ≤ 0.0 := LawfulOrder.le_trans (one_le_ofNat hs) (le_of_beq hzero)
      exact absurd hone (by decide)
    have hpower : (s : ℝ) / (10 ^ 308 : ℕ) / (10 ^ (p - 308) : ℕ) = s / (10 ^ p : ℕ) := by
      rw [div_div, ← Nat.cast_mul, ← pow_add, Nat.add_sub_cancel' hlarge.le]
    rw [divideBy, if_neg (by omega), if_neg hne, divideBy, if_pos (by omega)]
    rw [hpower] at hsecond
    exact ⟨hfinite, hsecond.mono (by positivity) (by norm_num) (by norm_num)⟩
  · obtain ⟨hfinite, -, hquotient⟩ :=
      closeTo_quotient hfs hs₀ s.cast_nonneg hsmall zero_le_one le_rfl hclose (by norm_num)
    rw [divideBy, if_pos hsmall]
    exact ⟨hfinite, hquotient.mono (by positivity) (by norm_num) (by norm_num)⟩

end Number

/-! ## The decimal and the double -/

theorem closeTo_magnitude {d : Scaled} (hpos : 0 < d.digits) (hdigits : d.digits ≤ 10 ^ 17)
    (hlow : -616 ≤ d.exponent) (hproduct : 0 ≤ d.exponent →
      d.exponent ≤ 308 ∧ (ofNat d.digits * Number.powerOfTen d.exponent.toNat).isFinite = true) :
    (magnitude d).isFinite = true ∧ CloseTo (6 / 2 ^ 53) (5 / 2) (real (magnitude d)) d.value := by
  unfold magnitude
  split_ifs with hsign
  · obtain ⟨hhigh, hfinite⟩ := hproduct hsign
    obtain ⟨k, hk⟩ := Int.eq_ofNat_of_zero_le hsign
    rw [Scaled.value, hk, zpow_natCast, ← Nat.cast_pow]
    rw [hk, Int.toNat_natCast] at hfinite
    rw [Int.toNat_natCast]
    have hclose := Number.closeTo_product hpos hdigits (by omega) hfinite
    exact ⟨hfinite, hclose.mono (by positivity) (by norm_num) (by norm_num)⟩
  · obtain ⟨k, hk⟩ : ∃ k : ℕ, d.exponent = -(k : ℤ) := ⟨(-d.exponent).toNat, by omega⟩
    rw [Scaled.value, hk, neg_neg, Int.toNat_natCast, zpow_neg, zpow_natCast, ← Nat.cast_pow, ← div_eq_mul_inv]
    exact Number.closeTo_divideBy hpos hdigits (by omega)

theorem closeTo_shortest {m : ℕ} {e : ℤ} (hm : 0 < m) (hbits : m < 2 ^ 53) (hlow : -1074 ≤ e) (hhigh : e ≤ 971)
    (hfull : 2 ^ 52 ≤ m ∨ e = -1074) :
    CloseTo (1 / 2 ^ 53) 1 (shortest .toEven m e).value (m * 2 ^ e) := by
  obtain ⟨hbelow, habove⟩ := covers_bounds hm (Decimal.shortest_covers hm hbits hlow hhigh .toEven)
  have hunit := two_zpow_pos e
  have habsolute := underflowError_pos
  have hsize : 2 ^ e / 2 ≤ 1 / 2 ^ 53 * (m * 2 ^ e : ℝ) + 1 * underflowError := by
    rcases hfull with hfull | rfl
    · have hfull' : (2 : ℝ) ^ 52 ≤ m := by exact_mod_cast hfull
      have hscaled := mul_le_mul_of_nonneg_right hfull' hunit.le
      linarith
    · have hhalf := half_finest
      have hrelative : 0 ≤ 1 / 2 ^ 53 * (m * 2 ^ (-1074 : ℤ) : ℝ) := by positivity
      linarith
  refine le_trans (abs_le.mpr ⟨?_, ?_⟩) hsize <;> linarith

theorem reread_near {x : Float} (hx : x.isFinite = true) :
    (reread x).isFinite = true ∧ |real (reread x) - real x| ≤ 1 / 2 ^ 50 * |real x| + 2 ^ (-1073 : ℤ) := by
  have hfloor : 4 * underflowError = (2 : ℝ) ^ (-1073 : ℤ) := by
    rw [← half_finest, show (-1073 : ℤ) = -1074 + 1 by norm_num, zpow_add₀ (by norm_num), zpow_one]
    ring
  obtain ⟨negative, m, e, hdecode, hbits, hlow, hhigh, hfull, hreal⟩ := decode_finite hx
  -- Zero is exact; otherwise the errors of writing and of reading add up.
  rcases Nat.eq_zero_or_pos m with rfl | hm
  · have hsame : reread x = x := reread_eq hx (by rw [written_zero hdecode]; decide)
    rw [hsame, sub_self, abs_zero]
    exact ⟨hx, by positivity⟩
  · have hdecimal := closeTo_shortest hm hbits hlow hhigh hfull
    have hdigits := asWritten_digits (Decimal.shortest_digits_le hm hbits hlow hhigh .toEven)
    have hpos := asWritten_digits_pos (Decimal.shortest_digits_pos hm hbits hlow hhigh .toEven)
    have hexponent := asWritten_exponent (Decimal.shortest_exponent_ge hm hbits hlow hhigh .toEven) (by norm_num)
    have hproduct := written_product hx
    have hunit := two_zpow_pos e
    have hsize : (0 : ℝ) ≤ m * 2 ^ e := by positivity
    rw [written_eq hdecode] at hproduct
    obtain ⟨hfinite, hmagnitude⟩ := closeTo_magnitude hpos hdigits (by omega) hproduct
    rw [asWritten_value] at hmagnitude
    have hclose : CloseTo (1 / 2 ^ 50) 4 (real (magnitude (asWritten (shortest .toEven m e)))) (m * 2 ^ e) :=
      (hmagnitude.trans hdecimal (by norm_num)).mono hsize (by norm_num) (by norm_num)
    rw [CloseTo, hfloor] at hclose
    rw [reread, written_eq hdecode, isNegative_of_decode hdecode, hreal]
    cases negative with
    | false =>
        simp only [Bool.false_eq_true, if_false, abs_of_nonneg hsize]
        exact ⟨hfinite, hclose⟩
    | true =>
        simp only [if_true, real_neg, isFinite_neg, abs_neg, abs_of_nonneg hsize]
        rw [← abs_neg, neg_sub_neg, neg_sub]
        exact ⟨hfinite, hclose⟩

end WorkloadSynth.Json
