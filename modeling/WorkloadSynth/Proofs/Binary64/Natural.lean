import WorkloadSynth.Decimal.Reading
import WorkloadSynth.Number.Natural
import WorkloadSynth.Proofs.Binary64.Decoding

/-!
# Whole numbers through doubles

A whole number of more than fifty-three bits is rounded by dropping the bits that are too many, a half to
the even neighbour.  Such a double is read back as the number that it stands for, as long as this has a
word; so a word of sixty-four bits comes back as the nearest multiple of `2 ^ 11`, or as the greatest word
where that multiple is beyond it.
-/

set_option autoImplicit false

namespace WorkloadSynth.Binary64

open Float.Model (Format UnpackedFloat)
open Float.Model.UnpackedFloat

/-! ## Dropping bits -/

theorem evenNearest_div (n s : ℕ) : evenNearest ((n : ℝ) / 2 ^ s) = (roundShift n s : ℤ) := by
  have hunit : (0 : ℝ) < 2 ^ s := by positivity
  have hfloor : ⌊(n : ℝ) / 2 ^ s⌋ = ((n / 2 ^ s : ℕ) : ℤ) := by
    have h := Int.floor_div_natCast (n : ℝ) (2 ^ s)
    rw [Int.floor_natCast] at h
    exact_mod_cast h
  have hsplit : (n : ℝ) = 2 ^ s * (n / 2 ^ s : ℕ) + (n % 2 ^ s : ℕ) := by
    exact_mod_cast (Nat.div_add_mod n (2 ^ s)).symm
  have hless : (n : ℝ) / 2 ^ s < (n / 2 ^ s : ℕ) + 1 / 2 ↔ 2 * (n % 2 ^ s) < 2 ^ s := by
    rw [div_lt_iff₀ hunit, ← Nat.cast_lt (α := ℝ)]
    push_cast
    constructor <;> intro h <;> linarith
  have hmore : (n / 2 ^ s : ℕ) + 1 / 2 < (n : ℝ) / 2 ^ s ↔ 2 ^ s < 2 * (n % 2 ^ s) := by
    rw [lt_div_iff₀ hunit, ← Nat.cast_lt (α := ℝ)]
    push_cast
    constructor <;> intro h <;> linarith
  rw [evenNearest, hfloor, roundShift]
  simp only [Int.cast_natCast, hless, hmore, Nat.pow_eq]
  split_ifs <;> push_cast <;> omega

theorem roundShift_mem {n s k : ℕ} (hlow : 2 ^ (s + k) ≤ n) (hhigh : n < 2 ^ (s + k + 1)) :
    2 ^ k ≤ roundShift n s ∧ roundShift n s ≤ 2 ^ (k + 1) := by
  have hfloor : 2 ^ k ≤ n / 2 ^ s := by
    rw [Nat.le_div_iff_mul_le (by positivity), ← pow_add, Nat.add_comm]
    exact hlow
  have hceiling : n / 2 ^ s < 2 ^ (k + 1) := by
    rw [Nat.div_lt_iff_lt_mul (by positivity), ← pow_add, Nat.add_comm, ← Nat.add_assoc]
    exact hhigh
  unfold roundShift
  simp only [Nat.pow_eq]
  split_ifs <;> omega

/-- A number of `s + 53` bits is rounded by dropping the last `s`. -/
theorem rounded_natCast {n s : ℕ} (hlow : 2 ^ (s + 52) ≤ n) (hhigh : n < 2 ^ (s + 53)) :
    rounded n = (roundShift n s * 2 ^ s : ℕ) := by
  have hlog : Int.log 2 (n : ℝ) = (s + 52 : ℕ) := by
    rw [Int.log_natCast]
    exact_mod_cast (Nat.log_eq_iff (.inl (by omega))).mpr ⟨hlow, hhigh⟩
  have hgrid : gridExponent n = (s : ℤ) := by
    unfold gridExponent
    push_cast at hlog
    omega
  rw [rounded_of_nonneg n.cast_nonneg, roundedSize, hgrid, zpow_natCast, evenNearest_div]
  push_cast
  rfl

/-! ## Reading whole numbers back -/

theorem toNatural_of_natCast {x : Float} {n : ℕ} (h : real x = n) (hn : 2 ^ 53 ≤ n) :
    toNatural x = min maxNatural n := by
  have hc := canonical_unpacked x
  have hn' : (2 ^ 53 : ℝ) ≤ n := by exact_mod_cast hn
  rw [real] at h
  cases hu : x.toModel.unpack with
  | finite s m e hm =>
      rw [hu] at hc h
      have hsize : (0 : ℝ) < m * 2 ^ e := by positivity
      cases s with
      | negative =>
          have hneg : -(m * 2 ^ e : ℝ) = n := h
          linarith
      | positive =>
          have hvalue : (m * 2 ^ e : ℝ) = n := h
          have he := exponent_nonneg hc.1 (hn'.trans_eq hvalue.symm)
          have hbits : 2 ^ 52 ≤ m := hc.2.2.resolve_right (by omega)
          obtain ⟨k, rfl⟩ := Int.eq_ofNat_of_zero_le he
          have hwhole : m * 2 ^ k = n := by
            rw [zpow_natCast] at hvalue
            exact_mod_cast hvalue
          rw [toNatural, decode_eq, hu]
          simp [Decoded.ofUnpacked, isMinus, nearest, hwhole]
  | _ =>
      rw [hu] at h
      have hzero : (0 : ℝ) = n := h
      linarith

theorem toNatural_ofScientific {n s : ℕ} (hlow : 2 ^ (s + 52) ≤ n) (hhigh : n < 2 ^ (s + 53)) (hs : 1 ≤ s)
    (hs' : s ≤ 970) : toNatural (Float.ofScientific n false 0) = min maxNatural (roundShift n s * 2 ^ s) := by
  have hn : 2 ^ 53 ≤ n := (Nat.pow_le_pow_right (by norm_num) (by omega)).trans hlow
  obtain ⟨hdefined, hvalue⟩ := ofScientific_spec hn
  obtain ⟨hleast, hgreatest⟩ := roundShift_mem hlow hhigh
  have hsize : ((roundShift n s * 2 ^ s : ℕ) : ℝ) < 2 ^ (1024 : ℤ) := by
    have hle : roundShift n s * 2 ^ s ≤ 2 ^ (53 + s) :=
      (Nat.mul_le_mul_right _ hgreatest).trans_eq (pow_add 2 53 s).symm
    have hcast : ((roundShift n s * 2 ^ s : ℕ) : ℝ) ≤ 2 ^ ((53 + s : ℕ) : ℤ) := by
      rw [zpow_natCast]
      exact_mod_cast hle
    exact hcast.trans_lt (zpow_lt_zpow_right₀ (by norm_num) (by omega))
  have hlarge : 2 ^ 53 ≤ roundShift n s * 2 ^ s := by
    calc 2 ^ 53 = 2 ^ 52 * 2 ^ 1 := by norm_num
      _ ≤ roundShift n s * 2 ^ s := Nat.mul_le_mul hleast (Nat.pow_le_pow_right (by norm_num) hs)
  rw [nearestValue, rounded_natCast hlow hhigh, saturated_of_lt] at hvalue
  · exact toNatural_of_natCast (real_of_value hdefined hvalue).2 hlarge
  · rwa [abs_of_nonneg (Nat.cast_nonneg _)]

theorem min_roundShift_eq_iff {n : ℕ} (h : n < 2 ^ 64) :
    min maxNatural (roundShift n 11 * 2 ^ 11) = n ↔ 2 ^ 11 ∣ n ∨ n = 2 ^ 64 - 1 := by
  unfold maxNatural roundShift
  simp only [Nat.pow_eq]
  constructor
  · intro heq
    rcases min_choice (2 ^ 64 - 1) ((if 2 ^ 11 < 2 * (n % 2 ^ 11) then n / 2 ^ 11 + 1
      else if 2 * (n % 2 ^ 11) = 2 ^ 11 then n / 2 ^ 11 + n / 2 ^ 11 % 2 else n / 2 ^ 11) * 2 ^ 11) with hmin | hmin
    · exact .inr (heq.symm.trans hmin)
    · exact .inl (heq.symm.trans hmin ▸ Nat.dvd_mul_left _ _)
  · intro hkept
    split_ifs <;> omega

end WorkloadSynth.Binary64
