import WorkloadSynth.Proofs.Binary64.Identity
import WorkloadSynth.Proofs.Decimal.Shortest

/-!
# Reals that round to a double

What lies in the interval around a double is rounded to this double (`nearestValue_of_covers`): on the
double's own grid it is less than half a step away, or half a step from an even significand; below a power
of two the grid is twice as fine.
-/

set_option autoImplicit false

namespace WorkloadSynth.Binary64

open Float.Model (Format UnpackedFloat)
open Float.Model.UnpackedFloat

/-! ## Rounding to a near grid point -/

/-- Less than half a step from a grid point, or at most half a step from an even one. -/
def Near (k g : ℤ) (r : ℝ) : Prop :=
  ((2 * k - 1 : ℤ) : ℝ) * ((2 : ℕ) : ℝ) ^ g < r + r ∧ r + r < (2 * k + 1 : ℤ) * ((2 : ℕ) : ℝ) ^ g ∨
    2 ∣ k ∧ ((2 * k - 1 : ℤ) : ℝ) * ((2 : ℕ) : ℝ) ^ g ≤ r + r ∧ r + r ≤ (2 * k + 1 : ℤ) * ((2 : ℕ) : ℝ) ^ g

private theorem evenNearest_of_lt {k : ℤ} {y : ℝ} (h : (k : ℝ) - 1 / 2 < y) (h' : y < k + 1 / 2) :
    evenNearest y = k := by
  unfold evenNearest
  rcases lt_or_ge y k with hbelow | habove
  · have hfloor : ⌊y⌋ = k - 1 := Int.floor_eq_iff.mpr (by push_cast; constructor <;> linarith)
    rw [hfloor]
    push_cast
    rw [if_neg (by linarith), if_pos (by linarith)]
    ring
  · have hfloor : ⌊y⌋ = k := Int.floor_eq_iff.mpr (by constructor <;> linarith)
    rw [hfloor, if_pos h']

private theorem evenNearest_of_le {k : ℤ} {y : ℝ} (heven : 2 ∣ k) (h : (k : ℝ) - 1 / 2 ≤ y) (h' : y ≤ k + 1 / 2) :
    evenNearest y = k := by
  rcases h.eq_or_lt with rfl | h
  · have hfloor : ⌊(k : ℝ) - 1 / 2⌋ = k - 1 := Int.floor_eq_iff.mpr (by push_cast; constructor <;> linarith)
    unfold evenNearest
    rw [hfloor]
    push_cast
    rw [if_neg (by linarith), if_neg (by linarith)]
    omega
  · rcases h'.eq_or_lt with rfl | h'
    · have hfloor : ⌊(k : ℝ) + 1 / 2⌋ = k := Int.floor_eq_iff.mpr (by constructor <;> linarith)
      unfold evenNearest
      rw [hfloor, if_neg (lt_irrefl _), if_neg (lt_irrefl _)]
      omega
    · exact evenNearest_of_lt h h'

theorem roundedSize_of_near {r : ℝ} {k g : ℤ} (hgrid : gridExponent r = g) (h : Near k g r) :
    roundedSize r = k * 2 ^ g := by
  have hunit := two_zpow_pos g
  have hnearest : evenNearest (r / 2 ^ g) = k := by
    unfold Near at h
    push_cast at h
    rcases h with ⟨hless, hmore⟩ | ⟨heven, hless, hmore⟩
    · apply evenNearest_of_lt
      · rw [lt_div_iff₀ hunit]
        linarith
      · rw [div_lt_iff₀ hunit]
        linarith
    · apply evenNearest_of_le heven
      · rw [le_div_iff₀ hunit]
        linarith
      · rw [div_le_iff₀ hunit]
        linarith
  rw [roundedSize, hgrid, hnearest]

theorem gridExponent_eq {r : ℝ} {g : ℤ} (hr : 0 < r) (hg : -1074 ≤ g) (hless : r < 2 ^ (53 + g))
    (hmore : 2 ^ (52 + g) ≤ r ∨ g = -1074) : gridExponent r = g := by
  refine le_antisymm (gridExponent_le_of_lt hr hless hg) ?_
  rcases hmore with hmore | rfl
  · have hlog : 52 + g ≤ Int.log 2 r := (Int.zpow_le_iff_le_log one_lt_two hr).mp (by exact_mod_cast hmore)
    unfold gridExponent
    omega
  · exact le_max_right _ _

/-! ## The interval around a double -/

section Interval

open WorkloadSynth.Decimal (Interval)

variable {m : ℕ} {e : ℤ} {r : ℝ}

private theorem point_eq (n : ℕ) : (Interval.around m e).point n = n * 2 ^ e / 4 := by
  change (n : ℝ) * ((2 : ℕ) : ℝ) ^ (e - 2) = _
  rw [zpow_sub₀ (by norm_num)]
  norm_num
  ring

private theorem high_eq : (((Interval.around m e).high : ℕ) : ℝ) = 4 * m + 2 := by
  change ((4 * m + 2 : ℕ) : ℝ) = _
  push_cast
  ring

variable (hm : 0 < m)

include hm

private theorem low_eq : (((Interval.around m e).low : ℕ) : ℝ) =
    4 * m - (if m = 2 ^ 52 ∧ -1074 < e then 1 else 2) := by
  change ((4 * m - if m = 2 ^ 52 ∧ -1074 < e then 1 else 2 : ℕ) : ℝ) = _
  rw [Nat.cast_sub (by split_ifs <;> omega)]
  push_cast
  split_ifs <;> ring

theorem covers_bounds (h : (Interval.around m e).Covers r) :
    (2 * m - 1) * (2 : ℝ) ^ e ≤ 2 * r ∧ 2 * r ≤ (2 * m + 1) * 2 ^ e := by
  have hunit := two_zpow_pos e
  obtain ⟨hlow, hhigh⟩ := h.bounds
  rw [point_eq, low_eq hm] at hlow
  rw [point_eq, high_eq] at hhigh
  split_ifs at hlow <;> constructor <;> linarith

private theorem near_of_covers (h : (Interval.around m e).Covers r) : Near m e r := by
  have hunit := two_zpow_pos e
  obtain ⟨hlow, hhigh⟩ := covers_bounds hm h
  unfold Near
  push_cast
  by_cases heven : m % 2 = 0
  · exact .inr ⟨by omega, by linarith, by linarith⟩
  · have hopen : ¬ (Interval.around m e).closed = true := by
      change ¬ decide (m % 2 = 0) = true
      simpa using heven
    unfold Interval.Covers at h
    rw [if_neg hopen, point_eq, point_eq, high_eq, low_eq hm] at h
    split_ifs at h <;> exact .inl ⟨by linarith [h.1], by linarith [h.2]⟩

/-- Below a power of two the grid is twice as fine, and so the interval ends half of its steps away. -/
private theorem roundedSize_below (h : (Interval.around m e).Covers r) (hpower : m = 2 ^ 52) (hnormal : -1074 < e)
    (hbelow : r < m * 2 ^ e) : roundedSize r = m * 2 ^ e := by
  have hunit := two_zpow_pos e
  have hlow := h.bounds.1
  have hhalf : (2 : ℝ) ^ (e - 1) = 2 ^ e / 2 := by
    rw [zpow_sub₀ (by norm_num), zpow_one]
  have hbits' : (m : ℝ) = 2 ^ 52 := by exact_mod_cast hpower
  rw [point_eq, low_eq hm, if_pos ⟨hpower, hnormal⟩, hbits'] at hlow
  rw [hbits'] at hbelow ⊢
  have hgrid : gridExponent r = e - 1 := by
    apply gridExponent_eq (by linarith) (by omega)
    · rw [zpow_add₀ (by norm_num), hhalf]
      norm_cast
      push_cast
      linarith
    · left
      rw [zpow_add₀ (by norm_num), hhalf]
      norm_cast
      push_cast
      linarith
  have hnear : Near (2 ^ 53) (e - 1) r := by
    refine .inr ⟨⟨2 ^ 52, by norm_num⟩, ?_, ?_⟩ <;> push_cast <;> rw [hhalf] <;> linarith
  rw [roundedSize_of_near hgrid hnear, hhalf]
  push_cast
  ring

variable (hbits : m < 2 ^ 53) (he : -1074 ≤ e) (hfull : 2 ^ 52 ≤ m ∨ e = -1074)

include hbits he hfull

private theorem gridExponent_of_covers (h : (Interval.around m e).Covers r)
    (habove : m ≠ 2 ^ 52 ∨ e = -1074 ∨ m * (2 : ℝ) ^ e ≤ r) : gridExponent r = e := by
  obtain ⟨hlow, hhigh⟩ := covers_bounds hm h
  have hunit := two_zpow_pos e
  have hleast : (1 : ℝ) ≤ m := by exact_mod_cast hm
  have hmost : (m : ℝ) + 1 ≤ 2 ^ 53 := by exact_mod_cast hbits
  apply gridExponent_eq _ he
  · rw [zpow_add₀ (by norm_num)]
    norm_cast
    push_cast
    nlinarith
  · rcases hfull with hfull | rfl
    · by_cases hpower : m = 2 ^ 52
      · rcases habove with h | h | h
        · exact absurd hpower h
        · exact .inr h
        · left
          rw [zpow_add₀ (by norm_num)]
          refine le_of_eq_of_le ?_ h
          rw [hpower]
          norm_num
      · left
        have hmore : (2 ^ 52 : ℝ) + 1 ≤ m := by exact_mod_cast (by omega : 2 ^ 52 + 1 ≤ m)
        rw [zpow_add₀ (by norm_num)]
        norm_cast
        push_cast
        nlinarith
    · exact .inr rfl
  · nlinarith

theorem nearestValue_of_covers (he' : e ≤ 971) (h : (Interval.around m e).Covers r) :
    nearestValue r = ((m * 2 ^ e : ℝ) : EReal) := by
  have hunit := two_zpow_pos e
  have hleast : (1 : ℝ) ≤ m := by exact_mod_cast hm
  have hpos : 0 < r := by nlinarith [(covers_bounds hm h).1]
  have hsize : roundedSize r = m * 2 ^ e := by
    by_cases hbelow : m = 2 ^ 52 ∧ -1074 < e ∧ r < m * 2 ^ e
    · exact roundedSize_below hm h hbelow.1 hbelow.2.1 hbelow.2.2
    · have habove : m ≠ 2 ^ 52 ∨ e = -1074 ∨ m * (2 : ℝ) ^ e ≤ r := by
        by_contra hnot
        simp only [not_or, not_not, not_le] at hnot
        exact hbelow ⟨hnot.1, by omega, hnot.2.2⟩
      exact roundedSize_of_near (gridExponent_of_covers hm hbits he hfull h habove) (near_of_covers hm h)
  rw [← nearestValue_of_bits hbits he he', nearestValue, nearestValue, rounded_of_nonneg hpos.le, hsize,
    rounded_of_nonneg (by positivity), roundedSize_of_bits m e hbits he]

end Interval

end WorkloadSynth.Binary64
