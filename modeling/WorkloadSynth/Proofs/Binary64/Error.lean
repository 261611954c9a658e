import WorkloadSynth.Proofs.Binary64.Value

/-!
# How far rounding goes

One rounding moves a number by half a unit of its grid: by `2 ^ (-53)` of itself at most, or by half of the
least positive double where the grid is the finest (`closeTo_roundedSize`).  `CloseTo` carries such a relative
and such an absolute error through products, quotients and further roundings.
-/

set_option autoImplicit false

namespace WorkloadSynth.Binary64

/-! ## One rounding -/

noncomputable def underflowError : ℝ := ((2 : ℕ) : ℝ) ^ (-1075 : ℤ)

/-- From `b` to `a` it is `ε` of `b` and `κ` times half of the least positive double at most. -/
def CloseTo (ε κ a b : ℝ) : Prop := |a - b| ≤ ε * b + κ * underflowError

theorem underflowError_pos : 0 < underflowError := zpow_pos (by norm_num) _

theorem half_finest : (2 : ℝ) ^ (-1074 : ℤ) / 2 = underflowError := by
  rw [underflowError, show (-1075 : ℤ) = -1074 - 1 by norm_num, zpow_sub₀ (by norm_num), zpow_one]
  norm_num

theorem abs_evenNearest_sub_le (x : ℝ) : |(evenNearest x : ℝ) - x| ≤ 1 / 2 := by
  have hfloor := Int.floor_le x
  have hceil := Int.lt_floor_add_one x
  unfold evenNearest
  split_ifs with hless hmore
  · rw [abs_le]
    constructor <;> linarith
  · push_cast
    rw [abs_le]
    constructor <;> linarith
  · have hmiddle : x = ⌊x⌋ + 1 / 2 := le_antisymm (not_lt.mp hmore) (not_lt.mp hless)
    rw [abs_le]
    rcases Int.emod_two_eq_zero_or_one ⌊x⌋ with heven | hodd
    · rw [heven]
      push_cast
      constructor <;> linarith
    · rw [hodd]
      push_cast
      constructor <;> linarith

theorem abs_roundedSize_sub_le (x : ℝ) : |roundedSize x - x| ≤ 2 ^ gridExponent x / 2 := by
  have hunit := two_zpow_pos (gridExponent x)
  have hsplit : roundedSize x - x =
      ((evenNearest (x / 2 ^ gridExponent x) : ℝ) - x / 2 ^ gridExponent x) * 2 ^ gridExponent x := by
    rw [roundedSize, sub_mul, div_mul_cancel₀ _ hunit.ne']
  rw [hsplit, abs_mul, abs_of_pos hunit]
  calc |(evenNearest (x / 2 ^ gridExponent x) : ℝ) - x / 2 ^ gridExponent x| * 2 ^ gridExponent x
      ≤ 1 / 2 * 2 ^ gridExponent x := mul_le_mul_of_nonneg_right (abs_evenNearest_sub_le _) hunit.le
    _ = 2 ^ gridExponent x / 2 := by ring

private theorem half_grid_le {x : ℝ} (hx : 0 < x) (h : -1074 ≤ Int.log 2 x - 52) :
    (2 : ℝ) ^ gridExponent x / 2 ≤ 1 / 2 ^ 53 * x := by
  have hlog : ((2 : ℕ) : ℝ) ^ Int.log 2 x ≤ x := Int.zpow_log_le_self one_lt_two hx
  have hgrid : (2 : ℝ) ^ gridExponent x / 2 = 1 / 2 ^ 53 * (2 : ℝ) ^ Int.log 2 x := by
    rw [gridExponent, max_eq_left h, zpow_sub₀ (by norm_num)]
    norm_num
    ring
  rw [hgrid]
  exact mul_le_mul_of_nonneg_left (by exact_mod_cast hlog) (by positivity)

theorem closeTo_roundedSize {x : ℝ} (hx : 0 ≤ x) : CloseTo (1 / 2 ^ 53) 1 (roundedSize x) x := by
  rcases hx.eq_or_lt with rfl | hpos
  · rw [roundedSize_zero, CloseTo, sub_self, abs_zero, mul_zero, zero_add, one_mul]
    exact underflowError_pos.le
  · refine (abs_roundedSize_sub_le x).trans ?_
    have habsolute := underflowError_pos
    rcases le_total (-1074) (Int.log 2 x - 52) with hnormal | hfinest
    · have hhalf := half_grid_le hpos hnormal
      linarith
    · have hgrid : (2 : ℝ) ^ gridExponent x / 2 = underflowError := by
        rw [gridExponent, max_eq_right hfinest, half_finest]
      have hrelative : 0 ≤ 1 / 2 ^ 53 * x := by positivity
      linarith

theorem closeTo_roundedSize_normal {x : ℝ} (hx : (2 : ℝ) ^ (-1022 : ℤ) ≤ x) :
    CloseTo (1 / 2 ^ 53) 0 (roundedSize x) x := by
  have hpos : 0 < x := (two_zpow_pos _).trans_le hx
  have hlog : -1022 ≤ Int.log 2 x := (Int.zpow_le_iff_le_log one_lt_two hpos).mp (by exact_mod_cast hx)
  rw [CloseTo, zero_mul, add_zero]
  exact (abs_roundedSize_sub_le x).trans (half_grid_le hpos (by omega))

theorem roundedSize_of_nearestValue {r s : ℝ} (hr : 0 ≤ r) (h : nearestValue r = (s : EReal)) :
    roundedSize r = s := by
  rw [nearestValue, rounded_of_nonneg hr, saturated] at h
  split_ifs at h
  · exact absurd h.symm (EReal.coe_ne_top s)
  · exact absurd h.symm (EReal.coe_ne_bot s)
  · exact EReal.coe_injective h

theorem real_nearest {x : Float} {r : ℝ} (hx : x.isFinite = true) (h : value x = nearestValue r) (hr : 0 ≤ r) :
    real x = roundedSize r :=
  (roundedSize_of_nearestValue hr (h.symm.trans (value_of_isFinite hx))).symm

/-! ## Errors of several steps -/

namespace CloseTo

variable {ε δ κ l a b c d : ℝ}

theorem mono (h : CloseTo ε κ a b) (hb : 0 ≤ b) (hε : ε ≤ δ) (hκ : κ ≤ l) : CloseTo δ l a b := by
  have hrelative := mul_le_mul_of_nonneg_right hε hb
  have habsolute := mul_le_mul_of_nonneg_right hκ underflowError_pos.le
  exact h.trans (add_le_add hrelative habsolute)

theorem trans (h : CloseTo ε κ a b) (h' : CloseTo δ l b c) (hε : 0 ≤ ε) :
    CloseTo (ε + δ + ε * δ) (κ + (1 + ε) * l) a c := by
  have hclose : |b - c| ≤ δ * c + l * underflowError := h'
  have hb : b ≤ c + (δ * c + l * underflowError) := by linarith [le_abs_self (b - c)]
  have hscaled := mul_le_mul_of_nonneg_left hb hε
  calc |a - c| ≤ |a - b| + |b - c| := abs_sub_le a b c
    _ ≤ (ε * b + κ * underflowError) + (δ * c + l * underflowError) := add_le_add h h'
    _ ≤ (ε + δ + ε * δ) * c + (κ + (1 + ε) * l) * underflowError := by linarith

theorem mul (h : CloseTo ε 0 a b) (h' : CloseTo δ 0 c d) (hb : 0 ≤ b) (hd : 0 ≤ d) (hε : 0 ≤ ε) :
    CloseTo (ε + δ + ε * δ) 0 (a * c) (b * d) := by
  rw [CloseTo, zero_mul, add_zero] at *
  have hc : |c| ≤ d + δ * d := by
    calc |c| = |d + (c - d)| := by rw [add_sub_cancel]
      _ ≤ |d| + |c - d| := abs_add_le _ _
      _ ≤ d + δ * d := by rw [abs_of_nonneg hd]; exact add_le_add_right h' d
  calc |a * c - b * d| = |(a - b) * c + b * (c - d)| := by ring_nf
    _ ≤ |a - b| * |c| + b * |c - d| := by
        rw [← abs_mul, ← abs_of_nonneg hb, ← abs_mul, abs_of_nonneg hb]
        exact abs_add_le _ _
    _ ≤ (ε * b) * (d + δ * d) + b * (δ * d) :=
        add_le_add (mul_le_mul h hc (abs_nonneg c) (mul_nonneg hε hb)) (mul_le_mul_of_nonneg_left h' hb)
    _ = (ε + δ + ε * δ) * (b * d) := by ring

theorem div (h : CloseTo ε κ a b) (h' : CloseTo δ 0 c d) (hb : 0 ≤ b) (hc : 1 ≤ c) (hd : 0 < d)
    (hε : 0 ≤ ε) (hδ : 0 ≤ δ) (hδ' : δ < 1) (hκ : 0 ≤ κ) : CloseTo ((ε + δ) / (1 - δ)) κ (a / c) (b / d) := by
  rw [CloseTo, zero_mul, add_zero] at h'
  rw [CloseTo] at *
  have hless : 0 < 1 - δ := by linarith
  have hc₀ : 0 < c := by linarith
  have hcd : (1 - δ) * d ≤ c := by linarith [(abs_le.mp h').1]
  have hnumerator : |a * d - b * c| ≤ (ε + δ) * b * d + κ * underflowError * d := by
    calc |a * d - b * c| = |(a - b) * d + b * (d - c)| := by ring_nf
      _ ≤ |a - b| * d + b * |c - d| := by
          rw [abs_sub_comm c d, ← abs_of_nonneg hb, ← abs_of_pos hd, ← abs_mul, ← abs_mul, abs_of_nonneg hb,
            abs_of_pos hd]
          exact abs_add_le _ _
      _ ≤ (ε * b + κ * underflowError) * d + b * (δ * d) :=
          add_le_add (mul_le_mul_of_nonneg_right h hd.le) (mul_le_mul_of_nonneg_left h' hb)
      _ = (ε + δ) * b * d + κ * underflowError * d := by ring
  have habsolute : 0 ≤ κ * underflowError := mul_nonneg hκ underflowError_pos.le
  calc |a / c - b / d| = |a * d - b * c| / (c * d) := by
        rw [div_sub_div _ _ hc₀.ne' hd.ne', abs_div, abs_of_pos (mul_pos hc₀ hd), mul_comm c b]
    _ ≤ ((ε + δ) * b * d + κ * underflowError * d) / (c * d) :=
        div_le_div_of_nonneg_right hnumerator (by positivity)
    _ = (ε + δ) * b / c + κ * underflowError / c := by field_simp
    _ ≤ (ε + δ) / (1 - δ) * (b / d) + κ * underflowError := by
        refine add_le_add ?_ (div_le_self habsolute hc)
        rw [div_mul_div_comm]
        exact div_le_div_of_nonneg_left (by positivity) (by positivity) hcd

end CloseTo

end WorkloadSynth.Binary64
