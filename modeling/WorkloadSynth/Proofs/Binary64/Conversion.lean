import WorkloadSynth.Proofs.Binary64.Interval

/-!
# Whole numbers and parts after the point

Whole numbers are converted by one rounding (`ofNat_spec`), the truncation of a double that is not
negative is its floor, and what `fraction` leaves of it is exact (`fraction_spec`).  So a time of day
that moves forward wraps into the unit interval and never reaches its upper end.
-/

set_option autoImplicit false

namespace WorkloadSynth.Binary64

open Float.Model (Format UnpackedFloat)
open Float.Model.UnpackedFloat

/-! ## Exact results -/

theorem nearestValue_of_bits {m : ℕ} {e : ℤ} (hm : m < 2 ^ 53) (he : -1074 ≤ e) (he' : e ≤ 971) :
    nearestValue (m * 2 ^ e) = ((m * 2 ^ e : ℝ) : EReal) := by
  have hsize : (m * 2 ^ e : ℝ) < 2 ^ (1024 : ℤ) := by
    rw [show (1024 : ℤ) = 53 + 971 by norm_num, zpow_add₀ (by norm_num)]
    exact mul_lt_mul (by exact_mod_cast hm) (zpow_le_zpow_right₀ (by norm_num) he')
      (by positivity) (by positivity)
  rw [nearestValue, rounded_of_nonneg (by positivity), roundedSize_of_bits m e hm he, saturated_of_lt]
  rwa [abs_of_nonneg (by positivity)]

theorem nearestValue_natCast {n : ℕ} (hn : n ≤ 2 ^ 53) : nearestValue n = ((n : ℝ) : EReal) := by
  rcases hn.lt_or_eq with h | rfl
  · simpa using nearestValue_of_bits (e := 0) h (by norm_num) (by norm_num)
  · have hbits : ((2 ^ 53 : ℕ) : ℝ) = (2 ^ 52 : ℕ) * 2 ^ (1 : ℤ) := by norm_num
    rw [hbits]
    exact nearestValue_of_bits (by norm_num) (by norm_num) (by norm_num)

/-! ## Whole numbers -/

theorem toFloat_spec (w : UInt64) : w.toFloat ≤ w.toFloat ∧ value w.toFloat = nearestValue w.toNat := by
  obtain ⟨hc, hf, hv⟩ := normalize_spec w.toNat 0 .positive
  have h := ofUnpacked_spec hc hf
  have hexact : ((w.toNat : ℤ) : ℝ) * 2 ^ (0 : ℤ) = w.toNat := by simp
  rw [hv, hexact] at h
  exact h

theorem toFloat_mono {w v : UInt64} (h : w.toNat ≤ v.toNat) : w.toFloat ≤ v.toFloat := by
  obtain ⟨hw, hwv⟩ := toFloat_spec w
  obtain ⟨hv, hvv⟩ := toFloat_spec v
  rw [le_iff, hwv, hvv]
  exact ⟨hw, hv, nearestValue_mono (by exact_mod_cast h)⟩

/-- A numeral that is too large to be exact, or that has a large power of ten, is cut into its bits and
rounded once. -/
theorem ofScientific_power_spec {n p : ℕ} (hn : 0 < n) (h : 2 ^ 53 ≤ n ∨ 22 < p) (hp : p ≤ 2048) :
    Float.ofScientific n false p ≤ Float.ofScientific n false p ∧
      value (Float.ofScientific n false p) = nearestValue (n * (10 ^ p : ℕ)) := by
  have hsmall : ¬ (n < 2 ^ 53 ∧ p ≤ 22) := by omega
  have hfits : ¬ Int.ofNat p > 2 ^ 11 := by
    change ¬ (p : ℤ) > 2 ^ 11
    omega
  have hlarge : ¬ Int.ofNat p < -((2 : ℤ) ^ 11 + n.log2) := by
    change ¬ (p : ℤ) < _
    omega
  have hwhole : 0 ≤ Int.ofNat p := Int.natCast_nonneg p
  have hresult : Float.ofScientific n false p =
      ofUnpacked (roundWithAccuracy Format.binary64 (.positive * .positive)
        ((n <<< 53) * 10 ^ p) (-53) .exact) := by
    rw [Float.ofScientific, dif_neg hsmall]
    simp only [Bool.false_eq_true, if_false, Float.Model.ofScientific, UnpackedFloat.ofScientific,
      dif_neg hn.ne']
    rw [if_neg hfits, if_neg hlarge, if_pos hwhole]
    rfl
  have hvalue : ((n <<< 53 * 10 ^ p : ℕ) : ℝ) * 2 ^ (-53 : ℤ) = n * (10 ^ p : ℕ) := by
    rw [Nat.shiftLeft_eq, Nat.cast_mul, Nat.cast_mul, zpow_neg, Nat.cast_pow 2, mul_right_comm]
    congr 1
    exact mul_inv_cancel_right₀ (by norm_num) (n : ℝ)
  have hbits : 2 ^ 52 ≤ n <<< 53 * 10 ^ p := by
    have hten : 1 ≤ 10 ^ p := Nat.one_le_pow _ _ (by norm_num)
    rw [Nat.shiftLeft_eq]
    nlinarith
  have hexact : CutAt (n <<< 53 * 10 ^ p) ((n <<< 53 * 10 ^ p : ℕ) : ℝ) .exact := rfl
  have hpos : (0 : ℝ) < (n <<< 53 * 10 ^ p : ℕ) := by
    exact_mod_cast (by omega : 0 < n <<< 53 * 10 ^ p)
  have hnn : (0 : ℝ) ≤ n * (10 ^ p : ℕ) := by positivity
  generalize n <<< 53 * 10 ^ p = m at *
  obtain ⟨hc, hf, hv⟩ :=
    roundWithAccuracy_spec (.positive * .positive) hpos hexact (le_target (Or.inl hbits))
  have hspec := ofUnpacked_spec hc hf
  have hsize : exactValue (roundWithAccuracy Format.binary64 (.positive * .positive) m (-53) .exact) =
      rounded (n * (10 ^ p : ℕ)) := by
    rw [hv, hvalue, rounded_of_nonneg hnn]
    rfl
  rw [hsize, ← hresult] at hspec
  exact hspec

theorem ofScientific_spec {n : ℕ} (h : 2 ^ 53 ≤ n) :
    Float.ofScientific n false 0 ≤ Float.ofScientific n false 0 ∧
      value (Float.ofScientific n false 0) = nearestValue n := by
  have hspec := ofScientific_power_spec (p := 0) (by omega) (.inl h) (by norm_num)
  rwa [pow_zero, Nat.cast_one, mul_one] at hspec

theorem ofNat_spec (n : ℕ) : ofNat n ≤ ofNat n ∧ value (ofNat n) = nearestValue n := by
  unfold ofNat
  split_ifs with h
  · have hn : (UInt64.ofNat n).toNat = n := UInt64.toNat_ofNat_of_lt' h
    have hw := toFloat_spec (UInt64.ofNat n)
    rwa [hn] at hw
  · have hlarge : 2 ^ 64 ≤ n := Nat.not_lt.mp h
    exact ofScientific_spec ((by norm_num : 2 ^ 53 ≤ 2 ^ 64).trans hlarge)

theorem ofNat_mono {m n : ℕ} (h : m ≤ n) : ofNat m ≤ ofNat n := by
  obtain ⟨hm, hmv⟩ := ofNat_spec m
  obtain ⟨hn, hnv⟩ := ofNat_spec n
  rw [le_iff, hmv, hnv]
  exact ⟨hm, hn, nearestValue_mono (by exact_mod_cast h)⟩

theorem real_ofNat {n : ℕ} (h : n ≤ 2 ^ 53) : (ofNat n).isFinite = true ∧ real (ofNat n) = n := by
  obtain ⟨hdefined, hvalue⟩ := ofNat_spec n
  exact real_of_value hdefined (hvalue.trans (nearestValue_natCast h))

theorem real_literal {x : Float} {n : ℕ} (h : n ≤ 2 ^ 53) (hle : x ≤ ofNat n) (hge : ofNat n ≤ x) :
    real x = n := by
  obtain ⟨hf, hn⟩ := real_ofNat h
  have hx := isFinite_of_between hf hf hge hle
  rw [← hn]
  exact le_antisymm ((real_le_real hx hf).mpr hle) ((real_le_real hf hx).mpr hge)

theorem real_one : real 1.0 = 1 := by
  exact_mod_cast real_literal (n := 1) (by norm_num) (by decide) (by decide)

theorem within_ofNat {n : ℕ} (h : n ≤ 2 ^ 64) : Within 0.0 2e19 (ofNat n) :=
  ⟨LawfulOrder.le_trans (by decide) (ofNat_mono n.zero_le), LawfulOrder.le_trans (ofNat_mono h) (by decide),
    by decide, by decide⟩

theorem one_le_ofNat {n : ℕ} (h : 0 < n) : 1.0 ≤ ofNat n := by
  have hone : (1.0 : Float) ≤ ofNat 1 := by decide
  exact LawfulOrder.le_trans hone (ofNat_mono h)

theorem within_of_value {b x y : Float} {r : ℝ} (hx : Within 0.0 b x) (hy : y ≤ y)
    (h : value y = nearestValue r) (hr₀ : 0 ≤ r) (hr : r ≤ real x) : Within 0.0 b y := by
  refine ⟨Within.zero_le_of_value hy h hr₀, ?_, rfl, hx.finite_upper⟩
  rw [le_iff, h, ← nearestValue_real hx.finite_upper]
  exact ⟨hy, defined_of_isFinite hx.finite_upper, nearestValue_mono
    (hr.trans ((real_le_real hx.isFinite hx.finite_upper).mpr hx.upper))⟩

theorem Within.sub_nonneg {low high : Float} (h₀ : 0.0 ≤ low) (h : low ≤ high)
    (hf : high.isFinite = true) : Within 0.0 high (high - low) := by
  have hlow : low.isFinite = true := isFinite_of_between (by decide) hf h₀ h
  have hself : Within 0.0 high high :=
    ⟨LawfulOrder.le_trans h₀ h, defined_of_isFinite hf, by decide, hf⟩
  have hle := (real_le_real hlow hf).mpr h
  have hlow₀ := Within.real_nonneg hlow h₀
  obtain ⟨hdefined, hvalue⟩ := sub_spec hf hlow
  exact within_of_value hself hdefined hvalue (by linarith) (by linarith)

/-- Dividing by one or more, be it infinite, makes nothing larger. -/
theorem Within.shrink {b c x : Float} (hx : Within 0.0 b x) (hc : 1.0 ≤ c) : Within 0.0 b (x / c) := by
  have hx₀ := Within.real_nonneg hx.isFinite hx.lower
  by_cases hfc : c.isFinite = true
  · have hc₁ : 1 ≤ real c := by
      rw [← real_one]
      exact (real_le_real rfl hfc).mpr hc
    obtain ⟨hdefined, hvalue⟩ := div_spec hx.isFinite hfc (by linarith)
    exact within_of_value hx hdefined hvalue (by positivity) (div_le_self hx₀ hc₁)
  · obtain ⟨s, hs⟩ := exists_infinity (LawfulOrder.defined_right hc) hfc
    obtain ⟨t, ht⟩ := div_infinity hx.isFinite hs
    obtain ⟨hdefined, hvalue⟩ := ofUnpacked_spec (u := .zero t) trivial rfl
    rw [ht]
    refine within_of_value hx hdefined ?_ le_rfl hx₀
    rw [hvalue, nearestValue, rounded_zero]
    rfl

theorem Within.mul_share {b u x : Float} (hu : Within 0.0 1.0 u) (hx : Within 0.0 b x) :
    Within 0.0 b (u * x) := by
  have hu₀ := Within.real_nonneg hu.isFinite hu.lower
  have hu₁ : real u ≤ 1 := by
    rw [← real_one]
    exact (real_le_real hu.isFinite rfl).mpr hu.upper
  have hx₀ := Within.real_nonneg hx.isFinite hx.lower
  obtain ⟨hdefined, hvalue⟩ := mul_spec hu.isFinite hx.isFinite
  exact within_of_value hx hdefined hvalue (mul_nonneg hu₀ hx₀) (mul_le_of_le_one_left hx₀ hu₁)

/-! ## Truncation -/

theorem toUInt64_spec {x : Float} (hx : x.isFinite = true) (h₀ : 0 ≤ real x) (h : real x < 2 ^ 64) :
    (x.toUInt64.toNat : ℤ) = ⌊real x⌋ := by
  have hnumber : x.toModel.unpack.toInt 0 (UInt64.size - 1) = ⌊real x⌋ := by
    change x.toModel.unpack.isFinite = true at hx
    rw [real] at h₀ ⊢
    cases hu : x.toModel.unpack with
    | zero s => exact (Int.floor_zero (R := ℝ)).symm
    | finite s m e hm =>
        rw [hu] at h₀
        have hsize : (0 : ℝ) < m * 2 ^ e := by positivity
        cases s with
        | negative => exact absurd h₀ (not_le.mpr (neg_neg_of_pos hsize))
        | positive =>
            obtain ⟨a, k, ha, hk, he⟩ : ∃ a k : ℕ, (e - 0).toNat = a ∧
                (0 - (e - (a : ℤ))).toNat = k ∧ e + k = a := ⟨_, _, rfl, rfl, by omega⟩
            have hcut : CutAt (m <<< a) ((m <<< a : ℕ) : ℝ) .exact := rfl
            have hfloor := (hcut.standsFor.shiftRight k).floor_eq
            have hvalue : ((m <<< a : ℕ) : ℝ) / 2 ^ k = m * 2 ^ e := by
              rw [eq_sub_of_add_eq he, zpow_sub₀ (by norm_num), zpow_natCast, zpow_natCast,
                Nat.shiftLeft_eq]
              push_cast
              exact mul_div_assoc _ _ _
            rw [hvalue] at hfloor
            simp only [toInt, roundToInt, decreaseExponent, shiftToExponent, ha, hk]
            exact hfloor.symm
    | _ => rw [hu] at hx; cases hx
  have hnn : 0 ≤ ⌊real x⌋ := Int.floor_nonneg.mpr h₀
  have hlt : ⌊real x⌋ < 2 ^ 64 := Int.floor_lt.mpr (by exact_mod_cast h)
  change ((UInt64.ofNatClamp (x.toModel.unpack.toInt 0 (UInt64.size - 1)).toNat).toNat : ℤ) = _
  have hsize : ⌊real x⌋.toNat < UInt64.size := by
    change _ < 2 ^ 64
    omega
  rw [hnumber, UInt64.ofNatClamp_eq_ofNat _ hsize, UInt64.toNat_ofNat_of_lt' hsize]
  exact Int.toNat_of_nonneg hnn

/-! ## The part after the point -/

theorem Unpacks.exactValue_nonpos {b : BitVec Format.binary64.numBits} {u : UnpackedFloat} (h : Unpacks b u)
    (hsign : unpackSign b = 1#1) : exactValue u ≤ 0 := by
  have hsize (m : ℕ) (e : ℤ) : signed (.ofBitVec (unpackSign b)) ((m : ℝ) * 2 ^ e) ≤ 0 := by
    rw [hsign]
    exact neg_nonpos.mpr (by positivity)
  cases h with
  | subnormal => exact hsize _ _
  | normal => exact hsize _ _
  | _ => exact le_rfl

theorem real_nonpos_of_isNegative {x : Float} (h : isNegative x = true) : real x ≤ 0 := by
  apply (unpacks _).exactValue_nonpos
  have hbit : x.toBits.toNat / 2 ^ 63 = 1 := by
    have := congrArg UInt64.toNat (eq_of_beq h)
    rwa [UInt64.toNat_shiftRight, Nat.shiftRight_eq_div_pow] at this
  apply BitVec.eq_of_toNat_eq
  change x.toBits.toNat >>> 63 % 2 ^ 1 = 1
  rw [Nat.shiftRight_eq_div_pow, hbit]

/-- The part of fifty-three bits that lies after the point has no more of them. -/
theorem nearestValue_fract {m : ℕ} {e : ℤ} (hm : m < 2 ^ 53) (he : -1074 ≤ e) :
    nearestValue (Int.fract (m * 2 ^ e : ℝ)) = ((Int.fract (m * 2 ^ e : ℝ) : ℝ) : EReal) := by
  rcases le_or_gt 0 e with h | h
  · obtain ⟨k, rfl⟩ := Int.eq_ofNat_of_zero_le h
    have hwhole : (m * 2 ^ (k : ℤ) : ℝ) = ((m * 2 ^ k : ℕ) : ℤ) := by
      push_cast
      rw [zpow_natCast]
    rw [hwhole, Int.fract_intCast, nearestValue_zero]
    rfl
  · obtain ⟨k, hk⟩ := Int.eq_ofNat_of_zero_le (neg_nonneg.mpr h.le)
    obtain rfl : e = -(k : ℤ) := by omega
    have hquotient (n : ℕ) : (n * 2 ^ (-(k : ℤ)) : ℝ) = (n : ℝ) / (2 ^ k : ℕ) := by
      rw [zpow_neg, zpow_natCast, div_eq_mul_inv]
      push_cast
      rfl
    rw [hquotient, Int.fract_div_natCast_eq_div_natCast_mod, ← hquotient]
    exact nearestValue_of_bits ((Nat.mod_le m _).trans_lt hm) he (by omega)

theorem exponent_nonneg {m : ℕ} {e : ℤ} (hm : m < 2 ^ 53) (h : (2 : ℝ) ^ 53 ≤ m * 2 ^ e) : 0 ≤ e := by
  by_contra hneg
  have hle : (2 : ℝ) ^ e ≤ 2 ^ (0 : ℤ) := zpow_le_zpow_right₀ (by norm_num) (by omega)
  have hm' : (m : ℝ) < 2 ^ 53 := by exact_mod_cast hm
  have : (m * 2 ^ e : ℝ) ≤ m * 1 := mul_le_mul_of_nonneg_left (by simpa using hle) m.cast_nonneg
  linarith

theorem fract_eq_zero {m : ℕ} {e : ℤ} (hm : m < 2 ^ 53) (h : (2 : ℝ) ^ 53 ≤ m * 2 ^ e) :
    Int.fract (m * 2 ^ e : ℝ) = 0 := by
  obtain ⟨k, rfl⟩ := Int.eq_ofNat_of_zero_le (exponent_nonneg hm h)
  have hwhole : (m * 2 ^ (k : ℤ) : ℝ) = ((m * 2 ^ k : ℕ) : ℤ) := by
    push_cast
    rw [zpow_natCast]
  rw [hwhole, Int.fract_intCast]

theorem exists_bits {x : Float} (hx : x.isFinite = true) (h₀ : 0 ≤ real x) :
    ∃ m : ℕ, ∃ e : ℤ, m < 2 ^ 53 ∧ -1074 ≤ e ∧ real x = m * 2 ^ e := by
  have hc := canonical_unpacked x
  change x.toModel.unpack.isFinite = true at hx
  rw [real] at h₀ ⊢
  cases hu : x.toModel.unpack with
  | zero s => exact ⟨0, 0, by norm_num, by norm_num, by simp [exactValue]⟩
  | finite s m e hm =>
      rw [hu] at hc h₀
      have hsize : (0 : ℝ) < m * 2 ^ e := by positivity
      cases s with
      | negative => exact absurd h₀ (not_le.mpr (neg_neg_of_pos hsize))
      | positive => exact ⟨m, e, hc.1, hc.2.1, rfl⟩
  | _ => rw [hu] at hx; cases hx

theorem fraction_spec {x : Float} (hx : x.isFinite = true) (h₀ : 0 ≤ real x) :
    (fraction x).isFinite = true ∧ real (fraction x) = Int.fract (real x) := by
  obtain ⟨m, e, hm, he, hbits⟩ := exists_bits hx h₀
  obtain ⟨hsize, habs⟩ := abs_spec hx
  rw [abs_of_nonneg h₀] at habs
  have hlimit : real 9007199254740992.0 = 2 ^ 53 := by
    have := real_literal (x := 9007199254740992.0) (n := 2 ^ 53) le_rfl (by decide) (by decide)
    exact_mod_cast this
  have hfract : nearestValue (Int.fract (real x)) = ((Int.fract (real x) : ℝ) : EReal) := by
    rw [hbits]
    exact nearestValue_fract hm he
  obtain ⟨rest, hrest⟩ : ∃ rest, rest = if x.abs < 9007199254740992.0 then
      x.abs - x.abs.toUInt64.toFloat else x.abs - x.abs := ⟨_, rfl⟩
  have hfraction : fraction x = if isNegative x = true then -rest else rest := by
    rw [hrest]
    rfl
  have hspec : rest.isFinite = true ∧ real rest = Int.fract (real x) := by
    rw [hrest]
    split_ifs with hlt
    · rw [← real_lt_real hsize rfl, habs, hlimit] at hlt
      have hfloor := toUInt64_spec hsize (habs ▸ h₀) (by rw [habs]; linarith)
      rw [habs] at hfloor
      have hword : (x.abs.toUInt64.toNat : ℝ) = ⌊real x⌋ := by exact_mod_cast hfloor
      have hsmall : x.abs.toUInt64.toNat ≤ 2 ^ 53 := by
        have : ⌊real x⌋ < 2 ^ 53 := Int.floor_lt.mpr (by exact_mod_cast hlt)
        omega
      obtain ⟨hwhole, hwholeValue⟩ := toFloat_spec x.abs.toUInt64
      rw [nearestValue_natCast hsmall] at hwholeValue
      obtain ⟨hwf, hwr⟩ := real_of_value hwhole hwholeValue
      obtain ⟨hdefined, hvalue⟩ := sub_spec hsize hwf
      rw [habs, hwr, hword, Int.self_sub_floor, hfract] at hvalue
      exact real_of_value hdefined hvalue
    · rw [← real_lt_real hsize rfl, habs, hlimit, not_lt, hbits] at hlt
      obtain ⟨hdefined, hvalue⟩ := sub_spec hsize hsize
      rw [sub_self, nearestValue_zero] at hvalue
      rw [hbits, fract_eq_zero hm hlt]
      exact real_of_value hdefined hvalue
  obtain ⟨hf, hr⟩ := hspec
  rw [hfraction]
  split_ifs with hneg
  · have hzero : real x = 0 := le_antisymm (real_nonpos_of_isNegative hneg) h₀
    rw [real_neg, isFinite_neg, hr, hzero, Int.fract_zero, neg_zero]
    exact ⟨hf, rfl⟩
  · exact ⟨hf, hr⟩

theorem wrapUnit_mem {x : Float} (hx : x.isFinite = true) (h₀ : 0.0 ≤ x) :
    0.0 ≤ Scalar.wrapUnit x ∧ Scalar.wrapUnit x < 1.0 := by
  obtain ⟨hf, hr⟩ := fraction_spec hx (Within.real_nonneg hx h₀)
  have hnn : 0.0 ≤ fraction x := by
    rw [← real_le_real rfl hf, Within.real_zero, hr]
    exact Int.fract_nonneg _
  have hkept : Scalar.wrapUnit x = fraction x := if_neg (Scalar.not_lt_of_le hnn)
  rw [hkept]
  refine ⟨hnn, ?_⟩
  rw [← real_lt_real hf rfl, real_one, hr]
  exact Int.fract_lt_one _

/-! ## Bit patterns -/

theorem unpack_of_fields {b : BitVec Format.binary64.numBits} {f t : ℕ} (hb : b.toNat = f * 2 ^ 52 + t)
    (ht : t < 2 ^ 52) (hf : 0 < f) (hf' : f < 2047) :
    unpack Format.binary64 b = .finite .positive (2 ^ 52 + t) ((f : ℤ) - 1075) (by omega) := by
  have hsign : unpackSign b = 0#1 := by
    apply BitVec.eq_of_toNat_eq
    change b.toNat >>> 63 % 2 ^ 1 = 0
    rw [Nat.shiftRight_eq_div_pow, hb]
    omega
  have hexponent : (unpackExponent b).toNat = f := by
    change b.toNat >>> 52 % 2 ^ 11 = f
    rw [Nat.shiftRight_eq_div_pow, hb]
    omega
  have hmantissa : (unpackMantissa b).toNat = t := by
    change b.toNat >>> 0 % 2 ^ 52 = t
    rw [Nat.shiftRight_eq_div_pow, hb]
    omega
  have hunpacks := unpacks b
  generalize unpack Format.binary64 b = u at hunpacks ⊢
  cases hunpacks with
  | normal hlow hhigh =>
      congr 1
      · rw [hsign]
        rfl
      · rw [hmantissa]
      · rw [hexponent]
  | _ => omega

theorem real_ofBits {w : UInt64} {f t : ℕ} (hw : w.toNat = f * 2 ^ 52 + t) (ht : t < 2 ^ 52)
    (hf : 0 < f) (hf' : f < 2047) : (Float.ofBits w).isFinite = true ∧
      real (Float.ofBits w) = (2 ^ 52 + t : ℕ) * 2 ^ ((f : ℤ) - 1075) := by
  have hunpack := unpack_of_fields (b := w.toBitVec) hw ht hf hf'
  have hcanonical := canonical_unpack w.toBitVec
  have hrange := inRange_unpack w.toBitVec
  obtain ⟨hdefined, hvalue⟩ := ofUnpacked_spec hcanonical (by rw [hunpack]; rfl)
  rw [saturated_of_lt (abs_exactValue_lt hcanonical hrange), hunpack] at hvalue
  rw [hunpack] at hdefined
  have hspec := real_of_value hdefined hvalue
  have hbits : Float.ofBits w = ofUnpacked (unpack Format.binary64 w.toBitVec) := rfl
  rw [hbits, hunpack]
  exact hspec

theorem within_binade {w : UInt64} {f : ℕ} (hf : 0 < f) (hf' : f < 2047) :
    Within (Float.ofBits (UInt64.ofNat (f * 2 ^ 52)))
      (Float.ofBits (UInt64.ofNat (f * 2 ^ 52 + (2 ^ 52 - 1))))
      (Float.ofBits ((w >>> 12) ||| UInt64.ofNat (f * 2 ^ 52))) := by
  have hshift : (w >>> 12).toNat < 2 ^ 52 := by
    have hquotient : (w >>> 12).toNat = w.toNat / 2 ^ 12 := by
      rw [UInt64.toNat_shiftRight, Nat.shiftRight_eq_div_pow]
      rfl
    have := w.toNat_lt
    omega
  have hfield {n : ℕ} (hn : n < 2 ^ 64) : (UInt64.ofNat n).toNat = n := UInt64.toNat_ofNat_of_lt' hn
  have hword : ((w >>> 12) ||| UInt64.ofNat (f * 2 ^ 52)).toNat = f * 2 ^ 52 + (w >>> 12).toNat := by
    rw [UInt64.toNat_or, hfield (by omega), Nat.lor_comm, ← Nat.shiftLeft_eq,
      Nat.shiftLeft_add_eq_or_of_lt hshift]
  obtain ⟨hx, hxr⟩ := real_ofBits hword hshift hf hf'
  obtain ⟨hlow, hlowr⟩ := real_ofBits (w := UInt64.ofNat (f * 2 ^ 52)) (t := 0)
    ((hfield (by omega)).trans (Nat.add_zero _).symm) (by norm_num) hf hf'
  obtain ⟨hhigh, hhighr⟩ := real_ofBits (w := UInt64.ofNat (f * 2 ^ 52 + (2 ^ 52 - 1)))
    (hfield (by omega)) (by norm_num) hf hf'
  have hp : (0 : ℝ) < 2 ^ ((f : ℤ) - 1075) := by positivity
  refine ⟨(real_le_real hlow hx).mp ?_, (real_le_real hx hhigh).mp ?_, hlow, hhigh⟩
  · rw [hxr, hlowr]
    exact mul_le_mul_of_nonneg_right (by exact_mod_cast (by omega)) hp.le
  · rw [hxr, hhighr]
    exact mul_le_mul_of_nonneg_right (by exact_mod_cast (by omega)) hp.le

/-! ## Sines -/

theorem within_sine {x : Float} (hx : x.isFinite = true) : Within (-1.0) 1.0 (Scalar.sine x) := by
  have hsine : Scalar.sine x = if x.sin ≤ 1.0 then (if -1.0 ≤ x.sin then x.sin else -1.0) else 1.0 :=
    if_pos hx
  rw [hsine]
  split_ifs with h₁ h₂
  · exact ⟨h₂, h₁, rfl, rfl⟩
  · exact ⟨by decide, by decide, rfl, rfl⟩
  · exact ⟨by decide, by decide, rfl, rfl⟩

end WorkloadSynth.Binary64
