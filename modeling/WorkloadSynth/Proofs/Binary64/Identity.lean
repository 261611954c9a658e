import WorkloadSynth.Proofs.Binary64.Conversion

/-!
# Doubles with one value

A finite double other than zero is determined by its value: canonical significands are unique, and so are
the fields they are packed in.  Hence an operation whose exact result is a double gives back that double
and not one that merely compares equal: the neutral elements change no finite double but a zero.
-/

set_option autoImplicit false

namespace WorkloadSynth.Binary64

open Float.Model (Format UnpackedFloat)
open Float.Model.UnpackedFloat

/-! ## Bit patterns -/

theorem toNat_eq_fields (b : BitVec Format.binary64.numBits) : b.toNat =
    (unpackSign b).toNat * 2 ^ 63 + (unpackExponent b).toNat * 2 ^ 52 + (unpackMantissa b).toNat := by
  have hb : b.toNat < 2 ^ 64 := b.isLt
  have hsign : (unpackSign b).toNat = b.toNat >>> 63 % 2 ^ 1 := rfl
  have hexponent : (unpackExponent b).toNat = b.toNat >>> 52 % 2 ^ 11 := rfl
  have hmantissa : (unpackMantissa b).toNat = b.toNat >>> 0 % 2 ^ 52 := rfl
  rw [Nat.shiftRight_eq_div_pow] at hsign hexponent hmantissa
  omega

theorem toBitVec_ofBitVec (b : BitVec 1) : (Sign.ofBitVec b).toBitVec = b := by
  revert b
  decide

theorem fields_of_unpack {b : BitVec Format.binary64.numBits} {s : Sign} {m : ℕ} {e : ℤ} {hm : 0 < m}
    (h : unpack Format.binary64 b = .finite s m e hm) :
    unpackSign b = s.toBitVec ∧
      (m < 2 ^ 52 ∧ (unpackExponent b).toNat = 0 ∧ (unpackMantissa b).toNat = m ∨
        (unpackExponent b).toNat = e + 1075 ∧ 2 ^ 52 + (unpackMantissa b).toNat = m) := by
  have hfraction : (unpackMantissa b).toNat < 2 ^ 52 := (unpackMantissa b).isLt
  have hunpacks := unpacks b
  rw [h] at hunpacks
  cases hunpacks with
  | subnormal hexponent => exact ⟨(toBitVec_ofBitVec _).symm, .inl ⟨hfraction, hexponent, rfl⟩⟩
  | normal => exact ⟨(toBitVec_ofBitVec _).symm, .inr ⟨by omega, rfl⟩⟩

/-- No two patterns unpack to the same number other than zero. -/
theorem eq_of_unpack {b c : BitVec Format.binary64.numBits} {s : Sign} {m : ℕ} {e : ℤ} {hm : 0 < m}
    (hb : unpack Format.binary64 b = .finite s m e hm) (hc : unpack Format.binary64 c = .finite s m e hm) :
    b = c := by
  obtain ⟨hsign, hfields⟩ := fields_of_unpack hb
  obtain ⟨hsign', hfields'⟩ := fields_of_unpack hc
  apply BitVec.eq_of_toNat_eq
  rw [toNat_eq_fields b, toNat_eq_fields c, hsign, hsign']
  omega

theorem eq_of_bits {x y : Float} (h : x.toModel.toBits.toBitVec = y.toModel.toBits.toBitVec) : x = y := by
  obtain ⟨⟨w, hw⟩⟩ := x
  obtain ⟨⟨v, hv⟩⟩ := y
  obtain rfl : w = v := UInt64.eq_of_toBitVec_eq h
  rfl

def HasFields (b : BitVec Format.binary64.numBits) (s : Sign) (e m : ℕ) : Prop :=
  unpackSign b = s.toBitVec ∧ (unpackExponent b).toNat = e ∧ (unpackMantissa b).toNat = m

theorem HasFields.eq {b c : BitVec Format.binary64.numBits} {s : Sign} {e m : ℕ} (hb : HasFields b s e m)
    (hc : HasFields c s e m) : b = c := by
  apply BitVec.eq_of_toNat_eq
  rw [toNat_eq_fields b, toNat_eq_fields c, hb.1, hb.2.1, hb.2.2, hc.1, hc.2.1, hc.2.2]

private theorem infinity_fields {b : BitVec Format.binary64.numBits} {s : Sign}
    (h : unpack Format.binary64 b = .infinity s) : HasFields b s 2047 0 := by
  have hunpacks := unpacks b
  rw [h] at hunpacks
  cases hunpacks with
  | infinity hexponent hmantissa => exact ⟨(toBitVec_ofBitVec _).symm, hexponent, hmantissa⟩

theorem eq_of_infinity {x y : Float} {s : Sign} (hx : x.toModel.unpack = .infinity s)
    (hy : y.toModel.unpack = .infinity s) : x = y :=
  eq_of_bits ((infinity_fields hx).eq (infinity_fields hy))

/-! ## Values -/

theorem eq_of_size {m n : ℕ} {e f : ℤ} (h₁ : m < 2 ^ 53 ∧ -1074 ≤ e ∧ (2 ^ 52 ≤ m ∨ e = -1074))
    (h₂ : n < 2 ^ 53 ∧ -1074 ≤ f ∧ (2 ^ 52 ≤ n ∨ f = -1074)) (h : (m * 2 ^ e : ℝ) = n * 2 ^ f) :
    m = n ∧ e = f := by
  have hcompares := compares_size h₁ h₂
  rw [h] at hcompares
  cases ho : (compare e f).then (compare m n) with
  | lt => rw [ho] at hcompares; exact absurd hcompares (lt_irrefl _)
  | gt => rw [ho] at hcompares; exact absurd hcompares (lt_irrefl _)
  | eq =>
    obtain ⟨he, hm⟩ := Ordering.then_eq_eq.mp ho
    exact ⟨Nat.compare_eq_eq.mp hm, Int.compare_eq_eq.mp he⟩

theorem eq_of_exactValue {u v : UnpackedFloat} (hu : Canonical u) (hv : Canonical v)
    (h : exactValue u = exactValue v) (hne : exactValue u ≠ 0) : u = v := by
  cases u with
  | finite s m e hm =>
    cases v with
    | finite t n f hn =>
      have hpos : (0 : ℝ) < m * 2 ^ e := by positivity
      have hpos' : (0 : ℝ) < n * 2 ^ f := by positivity
      obtain ⟨rfl, hsize⟩ : s = t ∧ (m * 2 ^ e : ℝ) = n * 2 ^ f := by
        cases s <;> cases t <;> simp only [exactValue, signed] at h
        · exact ⟨rfl, neg_injective h⟩
        · linarith
        · linarith
        · exact ⟨rfl, h⟩
      obtain ⟨rfl, rfl⟩ := eq_of_size hu hv hsize
      rfl
    | _ => exact absurd h hne
  | _ => exact absurd rfl hne

theorem eq_of_real {x y : Float} (h : real x = real y) (hne : real x ≠ 0) : x = y := by
  have hunpack := eq_of_exactValue (canonical_unpacked x) (canonical_unpacked y) h hne
  have hbits : x.toModel.toBits.toBitVec = y.toModel.toBits.toBitVec := by
    cases hu : x.toModel.unpack with
    | finite s m e hm => exact eq_of_unpack hu (hunpack.symm.trans hu)
    | _ => rw [real, hu] at hne; exact absurd rfl hne
  exact eq_of_bits hbits

theorem eq_of_value {x y : Float} (hx : x.isFinite = true) (hne : real x ≠ 0) (hy : y ≤ y)
    (h : value y = nearestValue (real x)) : y = x := by
  rw [nearestValue_real hx, value_of_isFinite hx] at h
  exact (eq_of_real (real_of_value hy h).2.symm hne).symm

/-! ## Doubles that compare equal -/

section

variable {x y : Float} (h : x ≤ y) (h' : y ≤ x)

include h h'

theorem beq_of_le : (x == y) = true := by
  obtain ⟨hx, hy, hle⟩ := le_iff.mp h
  have hequal := le_antisymm hle (le_iff.mp h').2.2
  have hcompares := compares_reading (canonical_unpacked x) (canonical_unpacked y) ((defined_iff x).mp hx)
    ((defined_iff y).mp hy)
  change (x.toModel.unpack.compare y.toModel.unpack == some .eq) = true
  change Compares _ (value x) (value y) at hcompares
  rw [hequal] at hcompares
  cases ho : x.toModel.unpack.compare y.toModel.unpack with
  | none => rw [ho] at hcompares; exact hcompares.elim
  | some o =>
      rw [ho] at hcompares
      cases o with
      | eq => rfl
      | _ => exact absurd hcompares (lt_irrefl (value y))

theorem eq_or_zero_of_le : x = y ∨ (x == 0.0) = true := by
  obtain ⟨hx, hy, hle⟩ := le_iff.mp h
  have hequal := le_antisymm hle (le_iff.mp h').2.2
  by_cases hfx : x.isFinite = true
  · rw [value_of_isFinite hfx] at hequal
    obtain ⟨-, hreal⟩ := real_of_value hy hequal.symm
    by_cases hzero : real x = 0
    · have hvalue : value x = value 0.0 := by
        rw [value_of_isFinite hfx, hzero, value_of_isFinite (by decide), Within.real_zero]
      exact .inr (beq_of_le (le_iff.mpr ⟨hx, by decide, hvalue.le⟩) (le_iff.mpr ⟨by decide, hx, hvalue.ge⟩))
    · exact .inl (eq_of_real hreal.symm hzero)
  · have hfy : ¬ y.isFinite = true := fun hfy =>
      hfx (isFinite_iff.mpr ⟨hx, hequal ▸ (isFinite_iff.mp hfy).2⟩)
    obtain ⟨s, hs⟩ := exists_infinity hx hfx
    obtain ⟨t, ht⟩ := exists_infinity hy hfy
    rw [value, value, hs, ht] at hequal
    cases s <;> cases t
    · exact .inl (eq_of_infinity hs ht)
    · exact absurd hequal bot_ne_top
    · exact absurd hequal top_ne_bot
    · exact .inl (eq_of_infinity hs ht)

end

/-! ## Neutral elements -/

section

variable {x : Float} (hx : x.isFinite = true) (hne : real x ≠ 0)

include hx hne

/-- A sum that begins at minus zero begins with its first term. -/
theorem neg_zero_add_eq : -0.0 + x = x := by
  have hzero : real (-0.0) = 0 := by rw [real_neg, Within.real_zero, neg_zero]
  obtain ⟨hdefined, hvalue⟩ := add_spec (x := -0.0) (by decide) hx
  rw [hzero, zero_add] at hvalue
  exact eq_of_value hx hne hdefined hvalue

theorem div_one_eq : x / 1.0 = x := by
  obtain ⟨hdefined, hvalue⟩ := div_spec hx (y := 1.0) (by decide) (by rw [real_one]; exact one_ne_zero)
  rw [real_one, div_one] at hvalue
  exact eq_of_value hx hne hdefined hvalue

theorem mul_one_eq : x * 1.0 = x := by
  obtain ⟨hdefined, hvalue⟩ := mul_spec hx (y := 1.0) (by decide)
  rw [real_one, mul_one] at hvalue
  exact eq_of_value hx hne hdefined hvalue

end

/-! ## Factors on either side of one -/

section

variable {x f : Float} (hx : x.isFinite = true) (h₀ : 0.0 ≤ x) (hf : f.isFinite = true)

include hx h₀ hf

theorem le_mul (h : 1.0 ≤ f) : x ≤ x * f := by
  have hfactor : 1 ≤ real f := real_one ▸ (real_le_real (by decide) hf).mpr h
  obtain ⟨hdefined, hvalue⟩ := mul_spec hx hf
  rw [le_iff, hvalue, ← nearestValue_real hx]
  exact ⟨defined_of_isFinite hx, hdefined,
    nearestValue_mono (le_mul_of_one_le_right (Within.real_nonneg hx h₀) hfactor)⟩

theorem mul_le (h : f ≤ 1.0) : x * f ≤ x := by
  have hfactor : real f ≤ 1 := real_one ▸ (real_le_real hf (by decide)).mpr h
  obtain ⟨hdefined, hvalue⟩ := mul_spec hx hf
  rw [le_iff, hvalue, ← nearestValue_real hx]
  exact ⟨hdefined, defined_of_isFinite hx,
    nearestValue_mono (mul_le_of_le_one_right (Within.real_nonneg hx h₀) hfactor)⟩

end

end WorkloadSynth.Binary64
