import WorkloadSynth.Proofs.Binary64.Nearest

/-!
# What rounding a significand computes

What a significand with its two extra bits stands for survives shifts to the right, and the significand it
rounds to is `evenNearest`.  From this come the two statements that arithmetic is built on:
`roundWithAccuracy` and `normalize` give a canonical result whose value is the exact one, `rounded`.
-/

set_option autoImplicit false

namespace WorkloadSynth.Binary64

open Float.Model (Format UnpackedFloat totalExponent)
open Float.Model.UnpackedFloat

/-! ## Two extra bits -/

namespace StandsFor

variable {em : ExtendedMantissa} {x : ℝ}

theorem bounds (h : StandsFor em x) :
    em.mantissa + em.roundBit.toNat / 2 ≤ x ∧ x < em.mantissa + em.roundBit.toNat / 2 + 1 / 2 := by
  have h₁ := Int.floor_le (2 * x)
  have h₂ := Int.lt_floor_add_one (2 * x)
  rw [h.1] at h₁ h₂
  push_cast at h₁ h₂
  constructor <;> linarith

theorem floor_eq (h : StandsFor em x) : ⌊x⌋ = em.mantissa := by
  obtain ⟨h₁, h₂⟩ := h.bounds
  rw [Int.floor_eq_iff]
  cases hr : em.roundBit <;> simp only [hr, Bool.toNat_true, Bool.toNat_false] at h₁ h₂ <;>
    push_cast at h₁ h₂ ⊢ <;> constructor <;> linarith

theorem roundedMantissa (h : StandsFor em x) : (em.roundedMantissa : ℤ) = evenNearest x := by
  have hf := h.floor_eq
  obtain ⟨hb, hs⟩ := h
  rcases em with ⟨m, round, sticky⟩
  simp only at hb hs hf
  unfold evenNearest
  rw [hf]
  rw [hb] at hs
  have hfloor := Int.floor_le (2 * x)
  have hnext := Int.lt_floor_add_one (2 * x)
  rw [hb] at hfloor hnext
  cases round <;> cases sticky <;>
    simp only [Bool.toNat_true, Bool.toNat_false, Bool.false_eq_true, false_iff, true_iff,
      not_not, ne_eq] at hs hfloor hnext <;> push_cast at hs hfloor hnext <;>
    simp only [ExtendedMantissa.roundedMantissa, ExtendedMantissa.accuracy,
      Accuracy.roundToNearestEven] <;> push_cast
  · rw [if_pos (by linarith)]
  · rw [if_pos (by linarith)]
  · rw [if_neg (by linarith), if_neg (by linarith)]
  · have hlt := lt_of_le_of_ne hfloor hs
    rw [if_neg (by linarith), if_pos (by linarith)]

theorem mantissa_eq_iff (h : StandsFor em x) :
    (em.mantissa : ℝ) = x ↔ em.roundBit = false ∧ em.stickyBit = false := by
  have hs : em.stickyBit = false ↔ (2 * em.mantissa + em.roundBit.toNat : ℝ) = 2 * x := by
    have := h.2
    rw [h.1] at this
    push_cast at this
    rw [← Bool.not_eq_true, this, not_not]
  rw [hs]
  constructor
  · intro heq
    have hlow := h.bounds.1
    have hr : em.roundBit = false := by
      by_contra hne
      rw [Bool.not_eq_false] at hne
      rw [hne, Bool.toNat_true] at hlow
      push_cast at hlow
      linarith
    refine ⟨hr, ?_⟩
    rw [hr, Bool.toNat_false, heq]
    push_cast
    ring
  · rintro ⟨hr, heq⟩
    rw [hr, Bool.toNat_false] at heq
    push_cast at heq
    linarith

theorem shiftRightOne (h : StandsFor em x) : StandsFor em.shiftRightOne (x / 2) := by
  have hx : 2 * (x / 2) = x := by ring
  have hbit : ((em.mantissa % 2 != 0).toNat : ℤ) = em.mantissa % 2 := by
    rcases Nat.mod_two_eq_zero_or_one em.mantissa with hm | hm <;> simp [hm] <;> omega
  refine ⟨?_, ?_⟩
  · rw [hx, h.floor_eq]
    simp only [ExtendedMantissa.shiftRightOne, hbit]
    omega
  · rw [hx, h.floor_eq]
    simp only [ExtendedMantissa.shiftRightOne, Int.cast_natCast, ne_eq, h.mantissa_eq_iff,
      not_and_or, Bool.not_eq_false, Bool.or_eq_true]

theorem shiftRight (h : StandsFor em x) (n : ℕ) : StandsFor (em >>> n) (x / 2 ^ n) := by
  change StandsFor (n.repeat ExtendedMantissa.shiftRightOne em) _
  induction n with
  | zero => simpa [Nat.repeat] using h
  | succ n ih =>
      rw [Nat.repeat, pow_succ, ← div_div]
      exact ih.shiftRightOne

end StandsFor

/-! ## Significands cut from an exact value -/

theorem CutAt.standsFor {m : ℕ} {x : ℝ} {accuracy : Accuracy} (h : CutAt m x accuracy) :
    StandsFor (.ofMantissaAndAccuracy m accuracy) x := by
  have low (hlo : (m : ℝ) ≤ x) (hhi : x < m + 1 / 2) : ⌊2 * x⌋ = 2 * (m : ℤ) := by
    rw [Int.floor_eq_iff]
    push_cast
    constructor <;> linarith
  have high (hlo : (m : ℝ) + 1 / 2 ≤ x) (hhi : x < m + 1) : ⌊2 * x⌋ = 2 * (m : ℤ) + 1 := by
    rw [Int.floor_eq_iff]
    push_cast
    constructor <;> linarith
  match accuracy, h with
  | .exact, h =>
      have hf := low h.ge (by rw [h]; linarith)
      refine ⟨by simpa [ExtendedMantissa.ofMantissaAndAccuracy] using hf, ?_⟩
      rw [hf, h]
      simp [ExtendedMantissa.ofMantissaAndAccuracy]
  | .inexact .lt, h =>
      have hf := low h.1.le h.2
      refine ⟨by simpa [ExtendedMantissa.ofMantissaAndAccuracy] using hf, ?_⟩
      rw [hf]
      push_cast
      exact iff_of_true rfl (by linarith [h.1] : (2 * (m : ℝ)) < 2 * x).ne
  | .inexact .eq, h =>
      have hf := high h.ge (by rw [h]; linarith)
      refine ⟨by simpa [ExtendedMantissa.ofMantissaAndAccuracy] using hf, ?_⟩
      rw [hf, h]
      push_cast
      exact iff_of_false Bool.false_ne_true (not_not.mpr (by ring))
  | .inexact .gt, h =>
      have hf := high h.1.le h.2
      refine ⟨by simpa [ExtendedMantissa.ofMantissaAndAccuracy] using hf, ?_⟩
      rw [hf]
      push_cast
      exact iff_of_true rfl (by linarith [h.1] : 2 * (m : ℝ) + 1 < 2 * x).ne

theorem cutAt_quotient (a d : ℕ) (hd : 0 < d) :
    CutAt (a / d) (a / d : ℝ) (accuracyOfFraction (a % d) d) := by
  have hd' : (0 : ℝ) < d := by exact_mod_cast hd
  have hsplit : (a : ℝ) / d = (a / d : ℕ) + (a % d : ℕ) / d := by
    have : (a : ℝ) = (d * (a / d) + a % d : ℕ) := by exact_mod_cast (Nat.div_add_mod a d).symm
    rw [this]
    push_cast
    field_simp
  have hlt : (a % d : ℕ) / (d : ℝ) < 1 := by
    rw [div_lt_one hd']
    exact_mod_cast Nat.mod_lt a hd
  rw [hsplit]
  generalize a % d = r at hlt ⊢
  unfold accuracyOfFraction
  split
  · next h => simp [CutAt, h]
  · next h =>
      have hpos : (0 : ℝ) < r / d := div_pos (by exact_mod_cast Nat.pos_of_ne_zero h) hd'
      rcases Nat.lt_trichotomy (2 * r) d with hc | hc | hc
      · have : (r : ℝ) / d < 1 / 2 := by
          rw [div_lt_div_iff₀ hd' two_pos]
          exact_mod_cast (by omega : r * 2 < 1 * d)
        rw [Nat.compare_eq_lt.mpr hc]
        exact ⟨by linarith, by linarith⟩
      · have : (r : ℝ) / d = 1 / 2 := by
          rw [div_eq_div_iff hd'.ne' two_ne_zero]
          exact_mod_cast (by omega : r * 2 = 1 * d)
        rw [Nat.compare_eq_eq.mpr hc]
        exact congrArg _ this
      · have : 1 / 2 < (r : ℝ) / d := by
          rw [div_lt_div_iff₀ two_pos hd']
          exact_mod_cast (by omega : 1 * d < r * 2)
        rw [Nat.compare_eq_gt.mpr hc]
        exact ⟨by linarith, by linarith⟩

/-! ## Rounding to the format -/

theorem signed_zero (s : Sign) : signed s 0 = 0 := by
  cases s <;> simp [signed]

theorem rounded_signed (s : Sign) {x : ℝ} (h : 0 ≤ x) :
    rounded (signed s x) = signed s (roundedSize x) := by
  cases s
  · simp only [signed, rounded_neg, rounded_of_nonneg h]
  · simp only [signed, rounded_of_nonneg h]

theorem targetExponent_eq (m : ℕ) (e : ℤ) :
    Format.binary64.targetExponent (totalExponent m e) = max ((m.log2 : ℤ) + e - 52) (-1074) := by
  simp only [Format.targetExponent, totalExponent, Format.mantissaBits, Format.minExponent]
  omega

theorem gridExponent_eq_target {m : ℕ} {x : ℝ} {e : ℤ} (hx : 0 < x) (hm : ⌊x⌋ = m)
    (he : e ≤ Format.binary64.targetExponent (totalExponent m e)) :
    gridExponent (x * 2 ^ e) = Format.binary64.targetExponent (totalExponent m e) := by
  rw [targetExponent_eq] at he ⊢
  obtain ⟨hlow, hhigh⟩ := Int.floor_eq_iff.mp hm
  push_cast at hlow hhigh
  rcases Nat.eq_zero_or_pos m with rfl | hpos
  · have he' : e ≤ -1074 := by
      simp only [Nat.log2_zero] at he
      omega
    have hlt : x * 2 ^ e < 2 ^ (-1074 : ℤ) := by
      calc x * 2 ^ e < 1 * 2 ^ e := mul_lt_mul_of_pos_right (by simpa using hhigh) (two_zpow_pos e)
        _ = 2 ^ e := one_mul _
        _ ≤ 2 ^ (-1074 : ℤ) := zpow_le_zpow_right₀ (by norm_num) he'
    have hlog := (Int.lt_zpow_iff_log_lt one_lt_two (mul_pos hx (two_zpow_pos e))).mp
      (by exact_mod_cast hlt)
    unfold gridExponent
    simp only [Nat.log2_zero]
    omega
  · have hp := mul_pos hx (two_zpow_pos e)
    have h₁ : (2 : ℝ) ^ ((m.log2 : ℤ) + e) ≤ x * 2 ^ e := by
      rw [zpow_add₀ (by norm_num), zpow_natCast]
      have : (2 : ℝ) ^ m.log2 ≤ m := by exact_mod_cast Nat.log2_self_le hpos.ne'
      exact mul_le_mul_of_nonneg_right (this.trans hlow) (two_zpow_pos e).le
    have h₂ : x * 2 ^ e < (2 : ℝ) ^ ((m.log2 : ℤ) + 1 + e) := by
      rw [zpow_add₀ (by norm_num)]
      have : (m : ℝ) + 1 ≤ 2 ^ ((m.log2 : ℤ) + 1) := by
        exact_mod_cast Nat.lt_log2_self (n := m)
      exact mul_lt_mul_of_pos_right (hhigh.trans_le this) (two_zpow_pos e)
    have hlog₁ := (Int.zpow_le_iff_le_log one_lt_two hp).mp (by exact_mod_cast h₁)
    have hlog₂ := (Int.lt_zpow_iff_log_lt one_lt_two hp).mp (by exact_mod_cast h₂)
    unfold gridExponent
    omega

private theorem shiftRight_zero (em : ExtendedMantissa) : em >>> (0 : ℕ) = em := rfl

theorem shiftToTarget_small {r : ℕ} {t : ℤ} (hr : r < 2 ^ 53) (ht : -1074 ≤ t) :
    shiftToTargetExponent Format.binary64 r t .exact = (⟨r, false, false⟩, t) := by
  have hlog : r.log2 ≤ 52 := by
    rcases Nat.eq_zero_or_pos r with rfl | hpos
    · simp
    · have := (Nat.log2_lt hpos.ne').mpr hr
      omega
  have hk : (Format.binary64.targetExponent (totalExponent r t) - t).toNat = 0 := by
    rw [targetExponent_eq]
    omega
  simp [shiftToTargetExponent, shiftToExponent, hk, shiftRight_zero,
    ExtendedMantissa.ofMantissaAndAccuracy]

theorem shiftToTarget_carry {t : ℤ} (ht : -1074 ≤ t) :
    shiftToTargetExponent Format.binary64 (2 ^ 53) t .exact = (⟨2 ^ 52, false, false⟩, t + 1) := by
  have hk : (Format.binary64.targetExponent (totalExponent (2 ^ 53) t) - t).toNat = 1 := by
    rw [targetExponent_eq, Nat.log2_two_pow]
    omega
  simp only [shiftToTargetExponent, shiftToExponent, hk]
  rfl

def ofShifted (s : Sign) (p : ExtendedMantissa × ℤ) : UnpackedFloat :=
  if h : p.1.mantissa = 0 then .zero s else .finite s p.1.mantissa p.2 (Nat.pos_of_ne_zero h)

theorem ofShifted_spec (s : Sign) {r : ℕ} {t : ℤ} (hr : r ≤ 2 ^ 53) (ht : -1074 ≤ t)
    (hlow : 2 ^ 52 ≤ r ∨ t = -1074) :
    Canonical (ofShifted s (shiftToTargetExponent Format.binary64 r t .exact)) ∧
      (ofShifted s (shiftToTargetExponent Format.binary64 r t .exact)).isFinite = true ∧
      exactValue (ofShifted s (shiftToTargetExponent Format.binary64 r t .exact)) =
        signed s (r * 2 ^ t) := by
  rcases hr.lt_or_eq with hlt | rfl
  · rw [shiftToTarget_small hlt ht]
    by_cases hz : r = 0
    · simp [ofShifted, hz, Canonical, exactValue, isFinite, signed_zero]
    · simp only [ofShifted, hz, dite_false, Canonical, exactValue, isFinite, and_self, and_true]
      exact ⟨hlt, ht, hlow⟩
  · rw [shiftToTarget_carry ht]
    have hne : ¬ (2 ^ 52 : ℕ) = 0 := by norm_num
    simp only [ofShifted, hne, dite_false, Canonical, exactValue, isFinite, true_and]
    refine ⟨⟨by norm_num, by omega, Or.inl le_rfl⟩, ?_⟩
    rw [zpow_add₀ (by norm_num)]
    push_cast
    ring_nf

theorem shiftToTarget_eq {m : ℕ} {e : ℤ} (accuracy : Accuracy)
    (he : e ≤ Format.binary64.targetExponent (totalExponent m e)) :
    shiftToTargetExponent Format.binary64 m e accuracy =
      (ExtendedMantissa.ofMantissaAndAccuracy m accuracy >>>
        (Format.binary64.targetExponent (totalExponent m e) - e).toNat,
        Format.binary64.targetExponent (totalExponent m e)) := by
  simp only [shiftToTargetExponent, shiftToExponent, Prod.mk.injEq, true_and]
  omega

theorem CutAt.floor_eq {m : ℕ} {x : ℝ} {accuracy : Accuracy} (h : CutAt m x accuracy) : ⌊x⌋ = m := by
  rw [h.standsFor.floor_eq]
  cases accuracy with
  | exact => rfl
  | inexact o => cases o <;> rfl

/-- In units of the grid around it, a positive number has at most fifty-three bits, and fewer only on
the finest grid. -/
theorem evenNearest_scaled_bounds {m k : ℕ} {x : ℝ} {e t : ℤ} (hm : ⌊x⌋ = m)
    (ht : t = max ((m.log2 : ℤ) + e - 52) (-1074)) (hk : e + k = t) :
    evenNearest (x / 2 ^ k) ≤ 2 ^ 53 ∧ (2 ^ 52 ≤ evenNearest (x / 2 ^ k) ∨ t = -1074) := by
  obtain ⟨hlow, hhigh⟩ := Int.floor_eq_iff.mp hm
  push_cast at hlow hhigh
  have hpk : (0 : ℝ) < 2 ^ k := by positivity
  constructor
  · rw [← evenNearest_intCast (2 ^ 53)]
    apply evenNearest_mono
    rw [div_le_iff₀ hpk]
    have hm' : m + 1 ≤ 2 ^ (m.log2 + 1) := Nat.lt_log2_self
    have hpow : 2 ^ (m.log2 + 1) ≤ 2 ^ (53 + k) := Nat.pow_le_pow_right two_pos (by omega)
    have : ((m + 1 : ℕ) : ℝ) ≤ (2 ^ (53 + k) : ℕ) := by exact_mod_cast hm'.trans hpow
    push_cast [pow_add] at this ⊢
    linarith
  · by_cases htm : t = -1074
    · exact Or.inr htm
    · left
      have hlog : m.log2 = 52 + k := by omega
      have hne : m ≠ 0 := by
        rintro rfl
        rw [Nat.log2_zero] at hlog
        omega
      rw [← evenNearest_intCast (2 ^ 52)]
      apply evenNearest_mono
      rw [le_div_iff₀ hpk]
      have : ((2 ^ (52 + k) : ℕ) : ℝ) ≤ m := by exact_mod_cast hlog ▸ Nat.log2_self_le hne
      push_cast [pow_add] at this ⊢
      linarith

/-- Rounding cuts at the grid around the exact value and gives the nearest point of it. -/
theorem roundWithAccuracy_spec (s : Sign) {m : ℕ} {x : ℝ} {e : ℤ} {accuracy : Accuracy} (hx : 0 < x)
    (hcut : CutAt m x accuracy) (he : e ≤ Format.binary64.targetExponent (totalExponent m e)) :
    Canonical (roundWithAccuracy Format.binary64 s m e accuracy) ∧
      (roundWithAccuracy Format.binary64 s m e accuracy).isFinite = true ∧
      exactValue (roundWithAccuracy Format.binary64 s m e accuracy) =
        signed s (roundedSize (x * 2 ^ e)) := by
  have hgrid := gridExponent_eq_target hx hcut.floor_eq he
  have hfirst := shiftToTarget_eq accuracy he
  have ht := targetExponent_eq m e
  generalize Format.binary64.targetExponent (totalExponent m e) = t at *
  obtain ⟨k, hk⟩ := Int.eq_ofNat_of_zero_le (sub_nonneg.mpr he)
  rw [hk, Int.toNat_natCast] at hfirst
  have hkt : e + k = t := by omega
  have hround := (hcut.standsFor.shiftRight k).roundedMantissa
  obtain ⟨hupper, hlower⟩ := evenNearest_scaled_bounds hcut.floor_eq ht hkt
  have hresult : roundWithAccuracy Format.binary64 s m e accuracy =
      ofShifted s (shiftToTargetExponent Format.binary64
        (ExtendedMantissa.ofMantissaAndAccuracy m accuracy >>> k).roundedMantissa t .exact) := by
    rw [roundWithAccuracy, hfirst]
    rfl
  generalize (ExtendedMantissa.ofMantissaAndAccuracy m accuracy >>> k).roundedMantissa = r at *
  -- In units of the grid the first shift has left the nearest whole number.
  have hvalue : (r : ℝ) * 2 ^ t = roundedSize (x * 2 ^ e) := by
    have hscaled : x * 2 ^ e / 2 ^ t = x / 2 ^ k := by
      rw [← hkt, zpow_add₀ (by norm_num), zpow_natCast]
      field_simp
    rw [roundedSize, hgrid, hscaled, ← hround]
    norm_cast
  rw [← hround] at hupper hlower
  rw [hresult, ← hvalue]
  exact ofShifted_spec s (by exact_mod_cast hupper) (by omega)
    (hlower.imp_left fun h => by exact_mod_cast h)

/-- Zeros shifted in from the right keep the value and give the significand bits enough to round. -/
theorem decreaseExponent_spec {m : ℕ} (hm : 0 < m) (e t : ℤ) :
    let d := decreaseExponent m e t
    0 < d.1 ∧ (d.1 : ℝ) * 2 ^ d.2 = m * 2 ^ e ∧ totalExponent d.1 d.2 = totalExponent m e ∧
      d.2 = min e t := by
  generalize hk : (e - t).toNat = k
  have hlog : (m <<< k).log2 = m.log2 + k := by
    rw [Nat.shiftLeft_eq, Nat.log2_eq_iff (by positivity)]
    have h₁ := Nat.log2_self_le hm.ne'
    have h₂ := Nat.lt_log2_self (n := m)
    have hp : 0 < 2 ^ k := by positivity
    constructor
    · rw [pow_add]
      exact Nat.mul_le_mul_right _ h₁
    · rw [show m.log2 + k + 1 = m.log2 + 1 + k by omega, pow_add _ (m.log2 + 1)]
      exact Nat.mul_lt_mul_of_pos_right h₂ hp
  simp only [decreaseExponent, hk]
  refine ⟨by rw [Nat.shiftLeft_eq]; positivity, ?_, ?_, by omega⟩
  · rw [Nat.shiftLeft_eq, zpow_sub₀ (by norm_num), zpow_natCast]
    push_cast
    field_simp
  · simp only [totalExponent, hlog]
    omega

theorem round_spec (s : Sign) {m : ℕ} (hm : 0 < m) (e : ℤ) :
    Canonical (round Format.binary64 s m e) ∧
      (round Format.binary64 s m e).isFinite = true ∧
      exactValue (round Format.binary64 s m e) = signed s (roundedSize (m * 2 ^ e)) := by
  have hspec := decreaseExponent_spec hm e (Format.binary64.targetExponent (totalExponent m e))
  rw [show round Format.binary64 s m e = roundWithAccuracy Format.binary64 s
    (decreaseExponent m e (Format.binary64.targetExponent (totalExponent m e))).1
    (decreaseExponent m e (Format.binary64.targetExponent (totalExponent m e))).2 .exact from rfl]
  generalize decreaseExponent m e (Format.binary64.targetExponent (totalExponent m e)) = d at *
  obtain ⟨hpos, hvalue, htotal, hmin⟩ := hspec
  rw [← hvalue]
  exact roundWithAccuracy_spec s (by exact_mod_cast hpos) rfl
    (by rw [htotal, hmin]; exact min_le_right _ _)

theorem normalize_spec (n : ℤ) (e : ℤ) (s : Sign) :
    Canonical (UnpackedFloat.normalize Format.binary64 n e s) ∧
      (UnpackedFloat.normalize Format.binary64 n e s).isFinite = true ∧
      exactValue (UnpackedFloat.normalize Format.binary64 n e s) = rounded (n * 2 ^ e) := by
  have hp : (0 : ℝ) < 2 ^ e := two_zpow_pos e
  rcases lt_trichotomy n 0 with h | rfl | h
  · have hcast : ((-n).toNat : ℤ) = -n := Int.toNat_of_nonneg (by omega)
    have hsize : (n : ℝ) * 2 ^ e = signed .negative ((-n).toNat * 2 ^ e) := by
      have : ((-n).toNat : ℝ) = -n := by exact_mod_cast hcast
      rw [signed, this]
      ring
    rw [hsize, rounded_signed _ (by positivity), UnpackedFloat.normalize, Int.compare_eq_lt.mpr h]
    exact round_spec .negative (by omega) e
  · rw [UnpackedFloat.normalize]
    simp [Canonical, isFinite, exactValue, rounded_zero]
  · have hcast : (n.toNat : ℤ) = n := Int.toNat_of_nonneg h.le
    have hsize : (n : ℝ) * 2 ^ e = signed .positive (n.toNat * 2 ^ e) := by
      have : (n.toNat : ℝ) = n := by exact_mod_cast hcast
      rw [signed, this]
    rw [hsize, rounded_signed _ (by positivity), UnpackedFloat.normalize, Int.compare_eq_gt.mpr h]
    exact round_spec .positive (by omega) e

end WorkloadSynth.Binary64
