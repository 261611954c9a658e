import WorkloadSynth.Number.Binary64
import WorkloadSynth.Proofs.Binary64.Identity

/-!
# Decoding doubles

`decode` takes the fields of the pattern apart as unpacking does (`decode_eq`).  So what it gives for a finite
double is a canonical significand with the value of the double (`decode_finite`), and the two zeros are the
only doubles it gives a significand of zero for.
-/

set_option autoImplicit false

namespace WorkloadSynth.Binary64

open Float.Model (Format UnpackedFloat)
open Float.Model.UnpackedFloat

def isMinus : Sign → Bool
  | .negative => true
  | .positive => false

def Decoded.ofUnpacked : UnpackedFloat → Decoded
  | .notANumber => .undefined
  | .infinity s => .infinite (isMinus s)
  | .zero s => .finite (isMinus s) 0 (-1074)
  | .finite s m e _ => .finite (isMinus s) m e

theorem isMinus_ofBitVec (b : BitVec 1) : isMinus (Sign.ofBitVec b) = (b.toNat == 1) := by
  revert b
  decide

section Fields

variable {x : Float} {b : BitVec Format.binary64.numBits} (hword : x.toBits.toNat = b.toNat)

include hword

private theorem exponent_field : x.toBits.toNat / Nat.pow 2 52 % Nat.pow 2 11 = (unpackExponent b).toNat := by
  have hsplit := toNat_eq_fields b
  have hexponent : (unpackExponent b).toNat < 2 ^ 11 := (unpackExponent b).isLt
  have hmantissa : (unpackMantissa b).toNat < 2 ^ 52 := (unpackMantissa b).isLt
  simp only [Nat.pow_eq]
  omega

private theorem mantissa_field : x.toBits.toNat % Nat.pow 2 52 = (unpackMantissa b).toNat := by
  have hsplit := toNat_eq_fields b
  have hmantissa : (unpackMantissa b).toNat < 2 ^ 52 := (unpackMantissa b).isLt
  simp only [Nat.pow_eq]
  omega

private theorem sign_field : isNegative x = isMinus (Sign.ofBitVec (unpackSign b)) := by
  have hsplit := toNat_eq_fields b
  have hexponent : (unpackExponent b).toNat < 2 ^ 11 := (unpackExponent b).isLt
  have hmantissa : (unpackMantissa b).toNat < 2 ^ 52 := (unpackMantissa b).isLt
  rw [isMinus_ofBitVec, isNegative, Bool.eq_iff_iff, beq_iff_eq, beq_iff_eq, ← UInt64.toNat_inj,
    UInt64.toNat_shiftRight, Nat.shiftRight_eq_div_pow]
  change x.toBits.toNat / 2 ^ 63 = 1 ↔ _
  omega

end Fields

theorem decode_eq (x : Float) : decode x = .ofUnpacked x.toModel.unpack := by
  obtain ⟨b, hb⟩ : ∃ b : BitVec Format.binary64.numBits, b = x.toModel.toBits.toBitVec := ⟨_, rfl⟩
  have hunpack : x.toModel.unpack = unpack Format.binary64 b := hb ▸ rfl
  have hword : x.toBits.toNat = b.toNat := by
    rw [hb]
    rfl
  rw [hunpack, decode]
  simp only [exponent_field hword, mantissa_field hword, sign_field hword]
  have hunpacks := unpacks b
  generalize unpack Format.binary64 b = u at hunpacks ⊢
  cases hunpacks with
  | notANumber hexponent hmantissa => rw [if_pos hexponent, if_neg hmantissa.ne', Decoded.ofUnpacked]
  | infinity hexponent hmantissa => rw [if_pos hexponent, if_pos hmantissa, Decoded.ofUnpacked]
  | zero hexponent hmantissa =>
      rw [if_neg (by omega), if_pos hexponent, hmantissa, Decoded.ofUnpacked]
  | subnormal hexponent => rw [if_neg (by omega), if_pos hexponent, Decoded.ofUnpacked]
  | normal hlow hhigh => rw [if_neg hhigh.ne, if_neg hlow.ne', Decoded.ofUnpacked, Nat.pow_eq]

/-! ## Zeros -/

private theorem zero_fields {b : BitVec Format.binary64.numBits} {s : Sign}
    (h : unpack Format.binary64 b = .zero s) : HasFields b s 0 0 := by
  have hunpacks := unpacks b
  rw [h] at hunpacks
  cases hunpacks with
  | zero hexponent hmantissa => exact ⟨(toBitVec_ofBitVec _).symm, hexponent, hmantissa⟩

theorem eq_of_zero {x y : Float} {s : Sign} (hx : x.toModel.unpack = .zero s) (hy : y.toModel.unpack = .zero s) :
    x = y :=
  eq_of_bits ((zero_fields hx).eq (zero_fields hy))

theorem isNegative_of_decode {x : Float} {negative : Bool} {m : ℕ} {e : ℤ}
    (h : decode x = .finite negative m e) : isNegative x = negative := by
  unfold decode at h
  dsimp only at h
  split_ifs at h <;> cases h <;> rfl

theorem eq_zero_of_decode {x : Float} {negative : Bool} {e : ℤ} (h : decode x = .finite negative 0 e) :
    x = if negative then -0.0 else 0.0 := by
  rw [decode_eq] at h
  cases hu : x.toModel.unpack with
  | zero s =>
      rw [hu] at h
      obtain rfl : isMinus s = negative := by
        cases h
        rfl
      cases s with
      | negative => exact eq_of_zero (y := -0.0) hu rfl
      | positive => exact eq_of_zero (y := 0.0) hu rfl
  | finite s m e hm =>
      rw [hu] at h
      cases h
      exact absurd hm (lt_irrefl 0)
  | _ =>
      rw [hu] at h
      cases h

/-! ## Finite doubles -/

theorem decode_finite {x : Float} (hx : x.isFinite = true) : ∃ negative m e,
    decode x = .finite negative m e ∧ m < 2 ^ 53 ∧ -1074 ≤ e ∧ e ≤ 971 ∧ (2 ^ 52 ≤ m ∨ e = -1074) ∧
      real x = if negative then -(m * 2 ^ e : ℝ) else m * 2 ^ e := by
  have hcanonical := canonical_unpacked x
  have hrange : InRange x.toModel.unpack := inRange_unpack _
  change x.toModel.unpack.isFinite = true at hx
  rw [decode_eq, real]
  cases hu : x.toModel.unpack with
  | zero s =>
      refine ⟨isMinus s, 0, -1074, rfl, by norm_num, le_rfl, by norm_num, .inr rfl, ?_⟩
      change (0 : ℝ) = _
      simp
  | finite s m e hm =>
      rw [hu] at hcanonical hrange
      refine ⟨isMinus s, m, e, rfl, hcanonical.1, hcanonical.2.1, hrange, hcanonical.2.2, ?_⟩
      cases s <;> rfl
  | _ =>
      rw [hu] at hx
      cases hx

theorem decode_of_not_finite {x : Float} (hx : ¬ x.isFinite = true) :
    decode x = .undefined ∨ ∃ negative, decode x = .infinite negative := by
  change ¬ x.toModel.unpack.isFinite = true at hx
  rw [decode_eq]
  cases hu : x.toModel.unpack with
  | notANumber => exact .inl rfl
  | infinity s => exact .inr ⟨_, rfl⟩
  | _ =>
      rw [hu] at hx
      exact absurd rfl hx

end WorkloadSynth.Binary64
