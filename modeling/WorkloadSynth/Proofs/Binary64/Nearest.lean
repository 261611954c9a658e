import WorkloadSynth.Proofs.Binary64.Meaning

/-!
# Rounding a real number to fifty-three bits

Rounding and the saturation after it are monotone and leave the points of the grid alone, and nothing else
about them is used where doubles are compared.
-/

set_option autoImplicit false

namespace WorkloadSynth.Binary64

/-! ## Whole numbers -/

theorem floor_le_evenNearest (x : ℝ) : ⌊x⌋ ≤ evenNearest x := by
  unfold evenNearest
  split_ifs <;> omega

theorem evenNearest_le_floor_add_one (x : ℝ) : evenNearest x ≤ ⌊x⌋ + 1 := by
  unfold evenNearest
  split_ifs <;> omega

theorem evenNearest_intCast (n : ℤ) : evenNearest n = n := by
  simp [evenNearest]

theorem evenNearest_mono {x y : ℝ} (h : x ≤ y) : evenNearest x ≤ evenNearest y := by
  rcases (Int.floor_le_floor h).lt_or_eq with hlt | heq
  · have hx := evenNearest_le_floor_add_one x
    have hy := floor_le_evenNearest y
    omega
  · unfold evenNearest
    rw [heq]
    split_ifs <;> first | omega | linarith

theorem evenNearest_nonneg {x : ℝ} (h : 0 ≤ x) : 0 ≤ evenNearest x := by
  have := evenNearest_mono h
  rwa [show (0 : ℝ) = ((0 : ℤ) : ℝ) by norm_num, evenNearest_intCast] at this

/-! ## The grid of doubles -/

theorem two_zpow_pos (e : ℤ) : (0 : ℝ) < 2 ^ e := zpow_pos (by norm_num) e

theorem roundedSize_nonneg {x : ℝ} (h : 0 ≤ x) : 0 ≤ roundedSize x := by
  have hq : 0 ≤ x / 2 ^ gridExponent x := div_nonneg h (two_zpow_pos _).le
  have hn : (0 : ℝ) ≤ evenNearest (x / 2 ^ gridExponent x) := by
    exact_mod_cast evenNearest_nonneg hq
  exact mul_nonneg hn (two_zpow_pos _).le

theorem roundedSize_zero : roundedSize 0 = 0 := by
  simp [roundedSize, evenNearest]

theorem rounded_zero : rounded 0 = 0 := by
  simp [rounded, roundedSize_zero]

theorem rounded_neg (x : ℝ) : rounded (-x) = -rounded x := by
  rcases lt_trichotomy x 0 with h | h | h
  · rw [rounded, rounded, if_pos (by linarith), if_neg (by linarith), neg_neg]
  · simp [h, rounded_zero]
  · rw [rounded, rounded, if_neg (by linarith), if_pos h.le, neg_neg]

theorem roundedSize_of_multiple (n : ℤ) (e : ℤ) (h : gridExponent (n * 2 ^ e) ≤ e) :
    roundedSize (n * 2 ^ e) = n * 2 ^ e := by
  set u := gridExponent (n * 2 ^ e)
  have hk : ((e - u).toNat : ℤ) = e - u := Int.toNat_of_nonneg (by omega)
  have hq : (n * 2 ^ e : ℝ) / 2 ^ u = ((n * 2 ^ (e - u).toNat : ℤ) : ℝ) := by
    push_cast
    rw [← zpow_natCast, hk, mul_div_assoc, zpow_sub₀ (by norm_num)]
  rw [roundedSize, hq, evenNearest_intCast, ← hq]
  exact div_mul_cancel₀ _ (two_zpow_pos u).ne'

theorem gridExponent_mono {x y : ℝ} (hx : 0 < x) (h : x ≤ y) : gridExponent x ≤ gridExponent y := by
  have := Int.log_mono_right (b := 2) hx h
  unfold gridExponent
  omega

theorem gridExponent_le_of_lt {x : ℝ} {e : ℤ} (hx : 0 < x) (h : x < 2 ^ (53 + e)) (he : -1074 ≤ e) :
    gridExponent x ≤ e := by
  have hlog : Int.log 2 x < 53 + e := (Int.lt_zpow_iff_log_lt one_lt_two hx).mp (by exact_mod_cast h)
  unfold gridExponent
  omega

theorem roundedSize_of_bits (m : ℕ) (e : ℤ) (hm : m < 2 ^ 53) (he : -1074 ≤ e) :
    roundedSize (m * 2 ^ e) = m * 2 ^ e := by
  rcases Nat.eq_zero_or_pos m with rfl | hpos
  · simp [roundedSize_zero]
  · have hp : (0 : ℝ) < m * 2 ^ e := mul_pos (by exact_mod_cast hpos) (two_zpow_pos e)
    have hlt : (m * 2 ^ e : ℝ) < 2 ^ (53 + e) := by
      rw [zpow_add₀ (by norm_num)]
      have hm' : (m : ℝ) < 2 ^ (53 : ℤ) := by exact_mod_cast hm
      exact mul_lt_mul_of_pos_right hm' (two_zpow_pos e)
    have h := roundedSize_of_multiple m e (by exact_mod_cast gridExponent_le_of_lt hp hlt he)
    exact_mod_cast h

theorem roundedSize_two_zpow (k : ℤ) (hk : -1074 ≤ k) : roundedSize (2 ^ k) = 2 ^ k := by
  simpa using roundedSize_of_bits 1 k (by norm_num) hk

private theorem roundedSize_le_of_same_grid {x y : ℝ} (h : x ≤ y)
    (hu : gridExponent x = gridExponent y) : roundedSize x ≤ roundedSize y := by
  unfold roundedSize
  rw [hu]
  have hq := evenNearest_mono (div_le_div_of_nonneg_right h (two_zpow_pos (gridExponent y)).le)
  exact mul_le_mul_of_nonneg_right (by exact_mod_cast hq) (two_zpow_pos _).le

/-- Between two grids lies the power of two at which the coarser one begins; rounding crosses it from
neither side. -/
theorem roundedSize_mono {x y : ℝ} (hx : 0 ≤ x) (h : x ≤ y) : roundedSize x ≤ roundedSize y := by
  rcases hx.eq_or_lt with rfl | hx
  · rw [roundedSize_zero]
    exact roundedSize_nonneg h
  rcases (gridExponent_mono hx h).lt_or_eq with hlt | heq
  · have hy : 0 < y := hx.trans_le h
    set L := Int.log 2 y
    have hL : gridExponent y = L - 52 ∧ Int.log 2 x < L ∧ -1022 ≤ L := by
      unfold gridExponent at hlt ⊢
      omega
    have hxL : x < 2 ^ L := by
      exact_mod_cast (Int.lt_zpow_iff_log_lt one_lt_two hx).mpr hL.2.1
    have hLy : (2 : ℝ) ^ L ≤ y := by exact_mod_cast Int.zpow_log_le_self one_lt_two hy
    have hgL : gridExponent ((2 : ℝ) ^ L) = L - 52 := by
      have : Int.log 2 ((2 : ℝ) ^ L) = L := by exact_mod_cast Int.log_zpow (R := ℝ) one_lt_two L
      unfold gridExponent
      omega
    have hlow : roundedSize x ≤ 2 ^ L := by
      have hfine : gridExponent x ≤ L := by omega
      have hk : ((L - gridExponent x).toNat : ℤ) = L - gridExponent x :=
        Int.toNat_of_nonneg (by omega)
      have hpow : (2 : ℝ) ^ L = ((2 ^ (L - gridExponent x).toNat : ℤ) : ℝ) * 2 ^ gridExponent x := by
        push_cast
        rw [← zpow_natCast, hk, ← zpow_add₀ (by norm_num)]
        congr 1
        omega
      have hq : evenNearest (x / 2 ^ gridExponent x) ≤ 2 ^ (L - gridExponent x).toNat := by
        rw [← evenNearest_intCast (2 ^ (L - gridExponent x).toNat)]
        apply evenNearest_mono
        rw [div_le_iff₀ (two_zpow_pos _), ← hpow]
        exact hxL.le
      rw [hpow, roundedSize]
      exact mul_le_mul_of_nonneg_right (by exact_mod_cast hq) (two_zpow_pos _).le
    calc roundedSize x ≤ 2 ^ L := hlow
      _ = roundedSize (2 ^ L) := (roundedSize_two_zpow L (by omega)).symm
      _ ≤ roundedSize y := roundedSize_le_of_same_grid hLy (by omega)
  · exact roundedSize_le_of_same_grid h heq

theorem rounded_mono {x y : ℝ} (h : x ≤ y) : rounded x ≤ rounded y := by
  unfold rounded
  split_ifs with hx hy hy
  · exact roundedSize_mono hx h
  · linarith
  · have h₁ := roundedSize_nonneg (x := -x) (by linarith)
    have h₂ := roundedSize_nonneg hy
    linarith
  · have := roundedSize_mono (x := -y) (y := -x) (by linarith) (by linarith)
    linarith

theorem rounded_of_nonneg {x : ℝ} (h : 0 ≤ x) : rounded x = roundedSize x := if_pos h

/-! ## The range of doubles -/

theorem saturated_mono {x y : ℝ} (h : x ≤ y) : saturated x ≤ saturated y := by
  have hp := two_zpow_pos 1024
  unfold saturated
  split_ifs <;> first | exact le_top | exact bot_le | exact EReal.coe_le_coe_iff.mpr h | linarith

theorem saturated_of_lt {x : ℝ} (h : |x| < 2 ^ (1024 : ℤ)) : saturated x = x := by
  obtain ⟨h₁, h₂⟩ := abs_lt.mp h
  rw [saturated, if_neg (by linarith), if_neg (by linarith)]

theorem saturated_neg (x : ℝ) : saturated (-x) = -saturated x := by
  have hp := two_zpow_pos 1024
  unfold saturated
  generalize (2 : ℝ) ^ (1024 : ℤ) = top at hp ⊢
  split_ifs <;> first | rfl | (exfalso; linarith)

theorem nearestValue_mono {x y : ℝ} (h : x ≤ y) : nearestValue x ≤ nearestValue y :=
  saturated_mono (rounded_mono h)

theorem nearestValue_zero : nearestValue 0 = 0 := by
  rw [nearestValue, rounded_zero, saturated_of_lt (by simp)]
  rfl

theorem nearestValue_neg (x : ℝ) : nearestValue (-x) = -nearestValue x := by
  rw [nearestValue, rounded_neg, saturated_neg, nearestValue]

end WorkloadSynth.Binary64
