import WorkloadSynth.Proofs.Binary64.Significand
import WorkloadSynth.Number.Binary64

/-!
# Doubles and the numbers they stand for

`value` reads a double as an extended real number and `real` a finite one as a real number.  The
comparisons of doubles are those of their values, once both operands are defined (`le_iff`,
`lt_iff`), and packing a canonical result saturates its value (`ofUnpacked_spec`).
-/

set_option autoImplicit false

namespace WorkloadSynth.Binary64

open Float.Model (Format UnpackedFloat)
open Float.Model.UnpackedFloat

/-! ## Values of unpacked doubles -/

noncomputable def reading : UnpackedFloat → EReal
  | .infinity .positive => ⊤
  | .infinity .negative => ⊥
  | u => exactValue u

theorem reading_of_isFinite {u : UnpackedFloat} (h : u.isFinite = true) : reading u = exactValue u := by
  cases u <;> first | rfl | cases h

theorem rounded_exactValue {u : UnpackedFloat} (hu : Canonical u) :
    rounded (exactValue u) = exactValue u := by
  cases u with
  | finite s m e hm =>
      rw [exactValue, rounded_signed s (by positivity), roundedSize_of_bits m e hu.1 hu.2.1]
  | _ => exact rounded_zero

/-- What a comparison of two doubles says of their values. -/
def Compares : Option Ordering → EReal → EReal → Prop
  | some .lt, x, y => x < y
  | some .eq, x, y => x = y
  | some .gt, x, y => y < x
  | none, _, _ => False

theorem Compares.any_isLE_iff {o : Option Ordering} {x y : EReal} (h : Compares o x y) :
    o.any (·.isLE) = true ↔ x ≤ y := by
  match o, h with
  | some .lt, h => exact iff_of_true rfl (le_of_lt h)
  | some .eq, h => exact iff_of_true rfl (le_of_eq h)
  | some .gt, h => exact iff_of_false Bool.false_ne_true (not_le_of_gt h)

theorem Compares.eq_lt_iff {o : Option Ordering} {x y : EReal} (h : Compares o x y) :
    (o == some .lt) = true ↔ x < y := by
  match o, h with
  | some .lt, h => exact iff_of_true rfl h
  | some .eq, h => exact iff_of_false Bool.false_ne_true (le_of_eq h.symm).not_gt
  | some .gt, h => exact iff_of_false Bool.false_ne_true (le_of_lt h).not_gt

private theorem size_pos {m : ℕ} (hm : 0 < m) (e : ℤ) : (0 : ℝ) < m * 2 ^ e := by
  positivity

theorem size_lt_of_exponent_lt {m₁ m₂ : ℕ} {e₁ e₂ : ℤ} (h₁ : m₁ < 2 ^ 53) (he₁ : -1074 ≤ e₁)
    (h₂ : 2 ^ 52 ≤ m₂ ∨ e₂ = -1074) (h : e₁ < e₂) : (m₁ * 2 ^ e₁ : ℝ) < m₂ * 2 ^ e₂ := by
  have hp : (0 : ℝ) < 2 ^ e₁ := zpow_pos (by norm_num) e₁
  have hm₂ : 2 ^ 52 ≤ m₂ := h₂.resolve_right (by omega)
  have hstep : (2 : ℝ) ^ e₁ * 2 ≤ 2 ^ e₂ := by
    rw [← zpow_add_one₀ (by norm_num)]
    exact zpow_le_zpow_right₀ (by norm_num) (by omega)
  calc (m₁ * 2 ^ e₁ : ℝ) < 2 ^ 53 * 2 ^ e₁ := mul_lt_mul_of_pos_right (by exact_mod_cast h₁) hp
    _ = 2 ^ 52 * (2 ^ e₁ * 2) := by ring
    _ ≤ m₂ * 2 ^ e₂ := mul_le_mul (by exact_mod_cast hm₂) hstep (by positivity) (by positivity)

theorem compares_size {m₁ m₂ : ℕ} {e₁ e₂ : ℤ} (h₁ : m₁ < 2 ^ 53 ∧ -1074 ≤ e₁ ∧ (2 ^ 52 ≤ m₁ ∨ e₁ = -1074))
    (h₂ : m₂ < 2 ^ 53 ∧ -1074 ≤ e₂ ∧ (2 ^ 52 ≤ m₂ ∨ e₂ = -1074)) :
    Compares (some ((compare e₁ e₂).then (compare m₁ m₂))) (m₁ * 2 ^ e₁ : ℝ) (m₂ * 2 ^ e₂ : ℝ) := by
  rcases lt_trichotomy e₁ e₂ with he | rfl | he
  · rw [Int.compare_eq_lt.mpr he]
    exact EReal.coe_lt_coe (size_lt_of_exponent_lt h₁.1 h₁.2.1 h₂.2.2 he)
  · have hp : (0 : ℝ) < 2 ^ e₁ := zpow_pos (by norm_num) e₁
    rw [Int.compare_eq_eq.mpr rfl]
    rcases Nat.lt_trichotomy m₁ m₂ with hm | rfl | hm
    · rw [Nat.compare_eq_lt.mpr hm]
      exact EReal.coe_lt_coe (mul_lt_mul_of_pos_right (by exact_mod_cast hm) hp)
    · rw [Nat.compare_eq_eq.mpr rfl]
      exact rfl
    · rw [Nat.compare_eq_gt.mpr hm]
      exact EReal.coe_lt_coe (mul_lt_mul_of_pos_right (by exact_mod_cast hm) hp)
  · rw [Int.compare_eq_gt.mpr he]
    exact EReal.coe_lt_coe (size_lt_of_exponent_lt h₂.1 h₂.2.1 h₁.2.2 he)

private theorem reading_positive {m : ℕ} (hm : 0 < m) (e : ℤ) :
    0 < reading (.finite .positive m e hm) :=
  EReal.coe_pos.mpr (size_pos hm e)

private theorem reading_negative {m : ℕ} (hm : 0 < m) (e : ℤ) :
    reading (.finite .negative m e hm) < 0 :=
  EReal.coe_neg'.mpr (neg_neg_of_pos (size_pos hm e))

theorem Compares.swap {o : Ordering} {x y : ℝ} (h : Compares (some o) x y) :
    Compares (some o.swap) (-x : ℝ) (-y : ℝ) := by
  cases o <;> simp only [Ordering.swap, Compares, EReal.coe_lt_coe_iff, EReal.coe_eq_coe_iff] at h ⊢ <;>
    linarith

theorem compares_reading {u v : UnpackedFloat} (hu : Canonical u) (hv : Canonical v)
    (hnu : u.isNaN = false) (hnv : v.isNaN = false) : Compares (u.compare v) (reading u) (reading v) := by
  cases u with
  | notANumber => cases hnu
  | infinity s =>
      cases v with
      | notANumber => cases hnv
      | infinity t => cases s <;> cases t <;> simp [UnpackedFloat.compare, Compares, reading, compare]
      | zero t => cases s <;> simp [UnpackedFloat.compare, Compares, reading, exactValue]
      | finite t m e hm => cases s <;> simp [UnpackedFloat.compare, Compares, reading, exactValue]
  | zero s =>
      cases v with
      | notANumber => cases hnv
      | infinity t => cases t <;> simp [UnpackedFloat.compare, Compares, reading, exactValue]
      | zero t => simp [UnpackedFloat.compare, Compares, reading, exactValue]
      | finite t m e hm =>
          cases t
          · exact reading_negative hm e
          · exact reading_positive hm e
  | finite s m e hm =>
      cases v with
      | notANumber => cases hnv
      | infinity t => cases s <;> cases t <;> simp [UnpackedFloat.compare, Compares, reading, exactValue]
      | zero t =>
          cases s
          · exact reading_negative hm e
          · exact reading_positive hm e
      | finite t n f hn =>
          have h := compares_size hu hv
          cases s <;> cases t
          · exact h.swap
          · exact (reading_negative hm e).trans (reading_positive hn f)
          · exact (reading_negative hn f).trans (reading_positive hm e)
          · exact h

theorem le_iff_reading {u v : UnpackedFloat} (hu : Canonical u) (hv : Canonical v) :
    u.le v = true ↔ u.isNaN = false ∧ v.isNaN = false ∧ reading u ≤ reading v := by
  by_cases hnu : u.isNaN = false
  · by_cases hnv : v.isNaN = false
    · simp only [hnu, hnv, true_and]
      exact (compares_reading hu hv hnu hnv).any_isLE_iff
    · cases v with
      | notANumber => cases u <;> simp [UnpackedFloat.le, UnpackedFloat.compare, isNaN]
      | _ => exact absurd rfl hnv
  · cases u with
    | notANumber => simp [UnpackedFloat.le, UnpackedFloat.compare, isNaN]
    | _ => exact absurd rfl hnu

theorem lt_iff_reading {u v : UnpackedFloat} (hu : Canonical u) (hv : Canonical v) :
    u.lt v = true ↔ u.isNaN = false ∧ v.isNaN = false ∧ reading u < reading v := by
  by_cases hnu : u.isNaN = false
  · by_cases hnv : v.isNaN = false
    · simp only [hnu, hnv, true_and]
      exact (compares_reading hu hv hnu hnv).eq_lt_iff
    · cases v with
      | notANumber => cases u <;> simp [UnpackedFloat.lt, UnpackedFloat.compare, isNaN]
      | _ => exact absurd rfl hnv
  · cases u with
    | notANumber => simp [UnpackedFloat.lt, UnpackedFloat.compare, isNaN]
    | _ => exact absurd rfl hnu

/-! ## Packing -/

theorem unpackSign_packComponents (s : Sign) (e : BitVec 11) (m : BitVec 52) :
    unpackSign (packComponents Format.binary64 s e m) = s.toBitVec := by
  have h : (s.toBitVec ++ e ++ m).getLsbD 63 = s.toBitVec.getLsbD 0 := by
    rw [BitVec.getLsbD_append, if_neg (by decide), BitVec.getLsbD_append, if_neg (by decide)]
  ext i hi
  obtain rfl : i = 0 := by omega
  simp only [unpackSign, packComponents, BitVec.getElem_cast, BitVec.extractLsb,
    BitVec.getElem_extractLsb']
  exact h

theorem ofBitVec_toBitVec (s : Sign) : Sign.ofBitVec s.toBitVec = s := by
  cases s <;> rfl

theorem toNat_leadingBit (v : BitVec 52) : (1#1 ++ v).toNat = 2 ^ 52 + v.toNat := by
  rw [BitVec.toNat_append, ← Nat.shiftLeft_add_eq_or_of_lt v.isLt]
  rfl

/-- What a pattern unpacks to, as its fields decide. -/
inductive Unpacks (b : BitVec Format.binary64.numBits) : UnpackedFloat → Prop
  | notANumber (hexponent : (unpackExponent b).toNat = 2047) (hmantissa : 0 < (unpackMantissa b).toNat) :
      Unpacks b .notANumber
  | infinity (hexponent : (unpackExponent b).toNat = 2047) (hmantissa : (unpackMantissa b).toNat = 0) :
      Unpacks b (.infinity (.ofBitVec (unpackSign b)))
  | zero (hexponent : (unpackExponent b).toNat = 0) (hmantissa : (unpackMantissa b).toNat = 0) :
      Unpacks b (.zero (.ofBitVec (unpackSign b)))
  | subnormal (hexponent : (unpackExponent b).toNat = 0) (hmantissa : 0 < (unpackMantissa b).toNat) :
      Unpacks b (.finite (.ofBitVec (unpackSign b)) (unpackMantissa b).toNat (-1074) hmantissa)
  | normal (hlow : 0 < (unpackExponent b).toNat) (hhigh : (unpackExponent b).toNat < 2047)
      (hbits : 0 < 2 ^ 52 + (unpackMantissa b).toNat) :
      Unpacks b (.finite (.ofBitVec (unpackSign b)) (2 ^ 52 + (unpackMantissa b).toNat)
        ((unpackExponent b).toNat - 1075) hbits)

theorem unpacks (b : BitVec Format.binary64.numBits) : Unpacks b (unpack Format.binary64 b) := by
  have hexponent : (unpackExponent b).toNat < 2 ^ 11 := (unpackExponent b).isLt
  have hpos : unpackMantissa b ≠ 0#52 → 0 < (unpackMantissa b).toNat := fun h =>
    Nat.pos_of_ne_zero fun hzero => h (BitVec.eq_of_toNat_eq hzero)
  unfold unpack
  dsimp only
  split_ifs with hones hnone hzeros hnone
  · exact .infinity (congrArg BitVec.toNat hones) (congrArg BitVec.toNat hnone)
  · exact .notANumber (congrArg BitVec.toNat hones) (hpos hnone)
  · exact .zero (congrArg BitVec.toNat hzeros) (congrArg BitVec.toNat hnone)
  · have hleast : (((unpackExponent b).toNat : ℤ) - 1075 + 1) = -1074 := by
      rw [hzeros]
      rfl
    change Unpacks b (.finite _ _ (((unpackExponent b).toNat : ℤ) - 1075 + 1) _)
    simp only [hleast]
    exact .subnormal (congrArg BitVec.toNat hzeros) (hpos hnone)
  · have hlow : (unpackExponent b).toNat ≠ 0 := fun h => hzeros (BitVec.eq_of_toNat_eq h)
    have hhigh : (unpackExponent b).toNat ≠ 2047 := fun h => hones (BitVec.eq_of_toNat_eq h)
    change Unpacks b (.finite _ (1#1 ++ unpackMantissa b).toNat (((unpackExponent b).toNat : ℤ) - 1075) _)
    simp only [toNat_leadingBit]
    exact .normal (by omega) (by omega) (by omega)

theorem Unpacks.canonical {b : BitVec Format.binary64.numBits} {u : UnpackedFloat} (h : Unpacks b u) :
    Canonical u := by
  have hmantissa : (unpackMantissa b).toNat < 2 ^ 52 := (unpackMantissa b).isLt
  cases h with
  | subnormal => exact ⟨by omega, le_rfl, .inr rfl⟩
  | normal => exact ⟨by omega, by omega, .inl (by omega)⟩
  | _ => trivial

theorem canonical_unpack (b : BitVec Format.binary64.numBits) : Canonical (unpack Format.binary64 b) :=
  (unpacks b).canonical

def InRange : UnpackedFloat → Prop
  | .finite _ _ e _ => e ≤ 971
  | _ => True

theorem Unpacks.inRange {b : BitVec Format.binary64.numBits} {u : UnpackedFloat} (h : Unpacks b u) :
    InRange u := by
  cases h with
  | subnormal => exact (by decide : (-1074 : ℤ) ≤ 971)
  | normal hlow hhigh =>
      change ((unpackExponent b).toNat : ℤ) - 1075 ≤ 971
      omega
  | _ => trivial

theorem inRange_unpack (b : BitVec Format.binary64.numBits) : InRange (unpack Format.binary64 b) :=
  (unpacks b).inRange

theorem abs_exactValue_lt {u : UnpackedFloat} (hu : Canonical u) (hr : InRange u) :
    |exactValue u| < 2 ^ (1024 : ℤ) := by
  cases u with
  | finite s m e hm =>
      have hsize : (m * 2 ^ e : ℝ) < 2 ^ (1024 : ℤ) := by
        rw [show (1024 : ℤ) = 53 + 971 by norm_num, zpow_add₀ (by norm_num)]
        exact mul_lt_mul (by exact_mod_cast hu.1) (zpow_le_zpow_right₀ (by norm_num) hr)
          (by positivity) (by positivity)
      have hnn : (0 : ℝ) ≤ m * 2 ^ e := by positivity
      cases s <;> simp only [exactValue, signed, abs_neg, abs_of_nonneg hnn] <;> exact hsize
  | _ => simp [exactValue]

private theorem packable_iff (e : ℤ) :
    2 ^ Format.binary64.exponentBits ≤ (e + Format.binary64.exponentBias +
      Format.binary64.mantissaBitsWithoutImplicit).toNat + 1 ↔ 971 < e := by
  change 2048 ≤ (e + 1023 + 52).toNat + 1 ↔ 971 < e
  omega

theorem unpack_pack_normal (s : Sign) {m : ℕ} {e : ℤ} (hm : 0 < m) (hlow : 2 ^ 52 ≤ m)
    (hlt : m < 2 ^ 53) (he : -1074 ≤ e) (he' : e ≤ 971) :
    unpack Format.binary64 (pack Format.binary64 (.finite s m e hm)) = .finite s m e hm := by
  have hlog : m.log2 = 52 := (Nat.log2_eq_iff hm.ne').mpr ⟨hlow, hlt⟩
  have hexp : (BitVec.ofNat 11 (e + 1023 + 52).toNat).toNat = (e + 1075).toNat := by
    rw [BitVec.toNat_ofNat]
    omega
  have hmant : (1#1 ++ BitVec.ofNat 52 m).toNat = m := by
    rw [toNat_leadingBit, BitVec.toNat_ofNat]
    omega
  have hbiased (n : ℕ) (hn : n = 0 ∨ n = 2047) :
      (BitVec.ofNat 11 (e + 1023 + 52).toNat).toNat ≠ n := by
    omega
  simp only [pack, if_neg (mt (packable_iff e).mp (not_lt.mpr he'))]
  rw [if_pos (by rw [hlog]; rfl)]
  simp only [unpack, unpackExponent_packComponents, unpackMantissa_packComponents,
    unpackSign_packComponents, ofBitVec_toBitVec]
  rw [if_neg fun h => hbiased 2047 (.inr rfl) (congrArg BitVec.toNat h),
    if_neg fun h => hbiased 0 (.inl rfl) (congrArg BitVec.toNat h)]
  congr 1
  change ((BitVec.ofNat 11 (e + 1023 + 52).toNat).toNat : ℤ) - 1075 = e
  omega

theorem unpack_pack_subnormal (s : Sign) {m : ℕ} (hm : 0 < m) (hlt : m < 2 ^ 52) :
    unpack Format.binary64 (pack Format.binary64 (.finite s m (-1074) hm)) =
      .finite s m (-1074) hm := by
  have hlog : m.log2 + 1 ≠ Format.binary64.mantissaBits := by
    have := (Nat.log2_lt hm.ne').mpr hlt
    change m.log2 + 1 ≠ 53
    omega
  have hmant : (BitVec.ofNat 52 m).toNat = m := by
    rw [BitVec.toNat_ofNat]
    exact Nat.mod_eq_of_lt hlt
  have hne : BitVec.ofNat 52 m ≠ 0#52 := by
    intro h
    rw [h] at hmant
    exact hm.ne hmant
  simp only [pack, if_neg (mt (packable_iff (-1074)).mp (by omega))]
  rw [if_neg hlog]
  simp only [unpack, unpackExponent_packComponents, unpackMantissa_packComponents,
    unpackSign_packComponents, ofBitVec_toBitVec]
  rw [if_neg (by decide), if_pos trivial, dif_neg hne]
  congr 1

theorem unpack_pack {u : UnpackedFloat} (hu : Canonical u) (hr : InRange u) :
    unpack Format.binary64 (pack Format.binary64 u) = u := by
  cases u with
  | notANumber => rfl
  | infinity s => cases s <;> rfl
  | zero s => cases s <;> rfl
  | finite s m e hm =>
      obtain ⟨hlt, hlow, hnorm⟩ := hu
      by_cases hbits : 2 ^ 52 ≤ m
      · exact unpack_pack_normal s hm hbits hlt hlow hr
      · obtain rfl := hnorm.resolve_left hbits
        exact unpack_pack_subnormal s hm (Nat.lt_of_not_le hbits)

theorem unpack_pack_overflow (s : Sign) {m : ℕ} {e : ℤ} (hm : 0 < m) (he : 971 < e) :
    unpack Format.binary64 (pack Format.binary64 (.finite s m e hm)) = .infinity s := by
  simp only [pack, if_pos ((packable_iff e).mpr he)]
  cases s <;> rfl

theorem saturated_signed (s : Sign) (x : ℝ) :
    saturated (signed s x) = match s with | .negative => -saturated x | .positive => saturated x := by
  cases s
  · exact saturated_neg x
  · rfl

/-- Packing a canonical result loses nothing but what lies beyond the largest double. -/
theorem reading_unpack_pack {u : UnpackedFloat} (hu : Canonical u) (hf : u.isFinite = true) :
    (unpack Format.binary64 (pack Format.binary64 u)).isNaN = false ∧
      reading (unpack Format.binary64 (pack Format.binary64 u)) = saturated (exactValue u) := by
  cases u with
  | notANumber => cases hf
  | infinity s => cases hf
  | zero s =>
      have h : saturated (exactValue (zero s)) = 0 := by
        rw [show exactValue (zero s) = 0 from rfl, saturated_of_lt (by simp)]
        rfl
      rw [h]
      cases s <;> exact ⟨rfl, rfl⟩
  | finite s m e hm =>
      by_cases he : e ≤ 971
      · rw [unpack_pack hu he, saturated_of_lt (abs_exactValue_lt hu he)]
        exact ⟨rfl, rfl⟩
      · have hbits : 2 ^ 52 ≤ m := hu.2.2.resolve_right (by omega)
        have hsize : (2 : ℝ) ^ (1024 : ℤ) ≤ m * 2 ^ e := by
          rw [show (1024 : ℤ) = 52 + 972 by norm_num, zpow_add₀ (by norm_num)]
          exact mul_le_mul (by exact_mod_cast hbits)
            (zpow_le_zpow_right₀ (by norm_num) (by omega)) (by positivity) (by positivity)
        rw [unpack_pack_overflow s hm (by omega), exactValue, saturated_signed, saturated, if_pos hsize]
        cases s <;> exact ⟨rfl, rfl⟩

/-! ## Doubles -/

noncomputable def value (x : Float) : EReal := reading x.toModel.unpack

noncomputable def real (x : Float) : ℝ := exactValue x.toModel.unpack

def ofUnpacked (u : UnpackedFloat) : Float := .ofModel (.pack u)

private theorem le_eq (x y : Float) : x ≤ y ↔ x.toModel.unpack.le y.toModel.unpack = true :=
  decide_eq_true_iff

private theorem lt_eq (x y : Float) : x < y ↔ x.toModel.unpack.lt y.toModel.unpack = true :=
  decide_eq_true_iff

theorem le_of_beq {x y : Float} (h : (x == y) = true) : x ≤ y := by
  have hequal : x.toModel.unpack.compare y.toModel.unpack = some .eq := eq_of_beq h
  rw [le_eq, UnpackedFloat.le, hequal]
  rfl

theorem canonical_unpacked (x : Float) : Canonical x.toModel.unpack := canonical_unpack _

theorem defined_iff (x : Float) : x ≤ x ↔ x.toModel.unpack.isNaN = false := by
  rw [le_eq, le_iff_reading (canonical_unpacked x) (canonical_unpacked _)]
  exact ⟨fun h => h.1, fun h => ⟨h, h, le_rfl⟩⟩

theorem le_iff {x y : Float} : x ≤ y ↔ x ≤ x ∧ y ≤ y ∧ value x ≤ value y := by
  rw [defined_iff, defined_iff, le_eq, le_iff_reading (canonical_unpacked x) (canonical_unpacked _)]
  rfl

theorem lt_iff {x y : Float} : x < y ↔ x ≤ x ∧ y ≤ y ∧ value x < value y := by
  rw [defined_iff, defined_iff, lt_eq, lt_iff_reading (canonical_unpacked x) (canonical_unpacked y)]
  rfl

theorem value_of_isFinite {x : Float} (h : x.isFinite = true) : value x = real x :=
  reading_of_isFinite h

theorem isFinite_iff {x : Float} : x.isFinite = true ↔ x ≤ x ∧ value x ≠ ⊥ ∧ value x ≠ ⊤ := by
  rw [defined_iff]
  change x.toModel.unpack.isFinite = true ↔
    _ ∧ reading x.toModel.unpack ≠ ⊥ ∧ reading x.toModel.unpack ≠ ⊤
  cases x.toModel.unpack with
  | notANumber => exact iff_of_false Bool.false_ne_true fun h => Bool.noConfusion h.1
  | infinity s => cases s <;> simp [isFinite, reading]
  | zero s => simp [isFinite, isNaN, reading]
  | finite s m e hm => simp [isFinite, isNaN, reading]

theorem defined_of_isFinite {x : Float} (h : x.isFinite = true) : x ≤ x := (isFinite_iff.mp h).1

theorem real_of_value {x : Float} {r : ℝ} (hx : x ≤ x) (h : value x = r) :
    x.isFinite = true ∧ real x = r := by
  have hf : x.isFinite = true :=
    isFinite_iff.mpr ⟨hx, by rw [h]; exact EReal.coe_ne_bot r, by rw [h]; exact EReal.coe_ne_top r⟩
  rw [value_of_isFinite hf] at h
  exact ⟨hf, EReal.coe_injective h⟩

theorem real_le_real {x y : Float} (hx : x.isFinite = true) (hy : y.isFinite = true) :
    real x ≤ real y ↔ x ≤ y := by
  rw [le_iff, value_of_isFinite hx, value_of_isFinite hy, EReal.coe_le_coe_iff]
  exact ⟨fun h => ⟨defined_of_isFinite hx, defined_of_isFinite hy, h⟩, fun h => h.2.2⟩

theorem real_lt_real {x y : Float} (hx : x.isFinite = true) (hy : y.isFinite = true) :
    real x < real y ↔ x < y := by
  rw [lt_iff, value_of_isFinite hx, value_of_isFinite hy, EReal.coe_lt_coe_iff]
  exact ⟨fun h => ⟨defined_of_isFinite hx, defined_of_isFinite hy, h⟩, fun h => h.2.2⟩

theorem isFinite_of_between {x lo hi : Float} (hlo : lo.isFinite = true) (hhi : hi.isFinite = true)
    (h₁ : lo ≤ x) (h₂ : x ≤ hi) : x.isFinite = true := by
  obtain ⟨-, hx, hlow⟩ := le_iff.mp h₁
  obtain ⟨-, -, hhigh⟩ := le_iff.mp h₂
  refine isFinite_iff.mpr ⟨hx, ?_, ?_⟩
  · intro h
    rw [h] at hlow
    exact (isFinite_iff.mp hlo).2.1 (le_bot_iff.mp hlow)
  · intro h
    rw [h] at hhigh
    exact (isFinite_iff.mp hhi).2.2 (top_le_iff.mp hhigh)

theorem ofUnpacked_spec {u : UnpackedFloat} (hu : Canonical u) (hf : u.isFinite = true) :
    ofUnpacked u ≤ ofUnpacked u ∧ value (ofUnpacked u) = saturated (exactValue u) := by
  rw [defined_iff]
  exact reading_unpack_pack hu hf

theorem rounded_real (x : Float) : rounded (real x) = real x :=
  rounded_exactValue (canonical_unpacked x)

theorem nearestValue_real {x : Float} (h : x.isFinite = true) : nearestValue (real x) = value x := by
  have hsize : |real x| < 2 ^ (1024 : ℤ) := abs_exactValue_lt (canonical_unpacked x) (inRange_unpack _)
  rw [nearestValue, rounded_real, saturated_of_lt hsize, value_of_isFinite h]

end WorkloadSynth.Binary64
