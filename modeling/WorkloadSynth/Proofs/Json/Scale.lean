import WorkloadSynth.Json.Token
import WorkloadSynth.Decimal.Layout
import WorkloadSynth.Proofs.Binary64.Decoding
import WorkloadSynth.Proofs.Decimal.Rounding

/-!
# Doubles read back from their decimals

A double is written as its shortest decimal and read back with two roundings, one of the significand and one
of the multiplication or division by a power of ten.  `reread` is what comes out: always a double, as no
decimal that is written goes beyond the largest one (`scale_written`), and the one that was written wherever
significand and power of ten are exact as doubles (`reread_eq`).
-/

set_option autoImplicit false

namespace WorkloadSynth.Json

namespace Number

open Binary64

/-! ## Powers of ten -/

private theorem powerOfTen_small : ∀ n ∈ List.range 23, powerOfTen n = ofNat (Nat.pow 10 n) := by
  decide +kernel

theorem powerOfTen_spec {n : ℕ} (h : n ≤ 2048) :
    powerOfTen n ≤ powerOfTen n ∧ value (powerOfTen n) = nearestValue (10 ^ n : ℕ) := by
  rcases Nat.lt_or_ge 22 n with hlarge | hsmall
  · have hspec := ofScientific_power_spec (n := 1) (p := n) (by norm_num) (.inr hlarge) h
    rwa [Nat.cast_one, one_mul] at hspec
  · rw [powerOfTen_small n (List.mem_range.mpr (by omega))]
    exact ofNat_spec (10 ^ n)

theorem powerOfTen_mono {m n : ℕ} (h : m ≤ n) (hn : n ≤ 2048) : powerOfTen m ≤ powerOfTen n := by
  obtain ⟨hm, hmv⟩ := powerOfTen_spec (h.trans hn)
  obtain ⟨hn, hnv⟩ := powerOfTen_spec hn
  rw [le_iff, hmv, hnv]
  exact ⟨hm, hn, nearestValue_mono (by exact_mod_cast Nat.pow_le_pow_right (by norm_num) h)⟩

theorem one_le_powerOfTen {n : ℕ} (h : n ≤ 308) : (powerOfTen n).isFinite = true ∧ 1 ≤ real (powerOfTen n) := by
  have hone : (1.0 : Float) ≤ powerOfTen 0 := by decide
  have hlow : 1.0 ≤ powerOfTen n := LawfulOrder.le_trans hone (powerOfTen_mono n.zero_le (by omega))
  have hfinite : (powerOfTen n).isFinite = true :=
    isFinite_of_between (by decide) (by decide +kernel) hlow (powerOfTen_mono h (by norm_num))
  exact ⟨hfinite, real_one ▸ (real_le_real (by decide) hfinite).mpr hlow⟩

theorem real_powerOfTen {n : ℕ} (h : n ≤ 22) : real (powerOfTen n) = (10 ^ n : ℕ) := by
  obtain ⟨hdefined, hvalue⟩ := powerOfTen_spec (n := n) (by omega)
  have hbits : ((10 ^ n : ℕ) : ℝ) = (5 ^ n : ℕ) * 2 ^ (n : ℤ) := by
    rw [zpow_natCast]
    norm_num [← mul_pow]
  have hodd : 5 ^ n < 2 ^ 53 :=
    (Nat.pow_le_pow_right (by norm_num) h).trans_lt (by norm_num)
  rw [hbits, nearestValue_of_bits hodd (by omega) (by omega)] at hvalue
  exact (real_of_value hdefined hvalue).2.trans hbits.symm

/-! ## The largest decimal -/

def scaledUp (s b n : ℕ) : ℕ := s * Nat.pow b n

theorem cast_scaledUp (s b n : ℕ) : (scaledUp s b n : ℝ) = s * (b : ℝ) ^ (n : ℤ) := by
  rw [scaledUp, Nat.pow_eq, Nat.cast_mul, Nat.cast_pow, zpow_natCast]

def largest : ℕ := scaledUp (Nat.pow 2 53 - 1) 2 971

theorem cast_largest : (largest : ℝ) = (2 ^ 53 - 1) * ((2 : ℕ) : ℝ) ^ (971 : ℤ) := by
  rw [largest, cast_scaledUp]
  norm_num

private theorem largest_products : ∀ k ∈ List.range 18,
    (ofNat (largest / Nat.pow 10 (k + 291))).isFinite = true ∧
      (ofNat (largest / Nat.pow 10 (k + 291)) * powerOfTen (k + 291)).isFinite = true := by
  decide +kernel

theorem isFinite_ofNat_of_le {s t : ℕ} (h : s ≤ t) (ht : (ofNat t).isFinite = true) : (ofNat s).isFinite = true :=
  isFinite_of_between (real_ofNat (Nat.zero_le _)).1 ht (ofNat_mono s.zero_le) (ofNat_mono h)

theorem real_ofNat_nonneg {s : ℕ} (h : (ofNat s).isFinite = true) : 0 ≤ real (ofNat s) := by
  have hzero := real_ofNat (n := 0) (Nat.zero_le _)
  simpa [hzero.2] using (real_le_real hzero.1 h).mpr (ofNat_mono s.zero_le)

private theorem isFinite_mul_of_le {s t m n : ℕ} (hs : s ≤ t) (hm : m ≤ n) (hn : n ≤ 308)
    (ht : (ofNat t).isFinite = true) (h : (ofNat t * powerOfTen n).isFinite = true) :
    (ofNat s * powerOfTen m).isFinite = true := by
  obtain ⟨hfx, hx⟩ := one_le_powerOfTen (hm.trans hn)
  obtain ⟨hfy, -⟩ := one_le_powerOfTen hn
  have hfs := isFinite_ofNat_of_le hs ht
  have hs₀ := real_ofNat_nonneg hfs
  have ht₀ := real_ofNat_nonneg ht
  obtain ⟨hdefined, hvalue⟩ := mul_spec hfs hfx
  have hlow := Within.zero_le_of_value hdefined hvalue (mul_nonneg hs₀ (zero_le_one.trans hx))
  have hhigh := mul_mono hfs ht hfx hfy (ofNat_mono hs) (powerOfTen_mono hm (by omega)) ht₀ (zero_le_one.trans hx)
  exact isFinite_of_between (by decide) h hlow hhigh

theorem isFinite_product {s n : ℕ} (hs : 0 < s) (hdigits : s ≤ 10 ^ 17) (h : scaledUp s 10 n ≤ largest) :
    n ≤ 308 ∧ (ofNat s * powerOfTen n).isFinite = true := by
  have hexponent : n ≤ 308 := by
    by_contra hn
    have htop : largest < Nat.pow 10 109 * Nat.pow 10 200 := by decide +kernel
    have hten : Nat.pow 10 109 * Nat.pow 10 200 ≤ 10 ^ n := by
      obtain ⟨k, rfl⟩ : ∃ k, n = 109 + (200 + k) := ⟨n - 309, by omega⟩
      rw [pow_add, pow_add, ← mul_assoc]
      exact Nat.le_mul_of_pos_right _ (by positivity)
    exact absurd (htop.trans_le (hten.trans ((Nat.le_mul_of_pos_left _ hs).trans h))) (lt_irrefl _)
  refine ⟨hexponent, ?_⟩
  rcases Nat.lt_or_ge 290 n with hlarge | hsmall
  · obtain ⟨k, rfl⟩ : ∃ k, n = k + 291 := ⟨n - 291, by omega⟩
    have hbound : s ≤ largest / 10 ^ (k + 291) := (Nat.le_div_iff_mul_le (by positivity)).mpr h
    obtain ⟨hfactor, hproduct⟩ := largest_products k (List.mem_range.mpr (by omega))
    exact isFinite_mul_of_le hbound le_rfl hexponent hfactor hproduct
  · exact isFinite_mul_of_le hdigits hsmall (by norm_num) (by decide) (by decide +kernel)

/-! ## The decimal that is written -/

end Number

open Binary64
open Decimal (Scaled shortest)

/-- The digits that stand in the text of a decimal and the power of ten that they are read with: a whole number
written in full brings its zeros and one more after the point. -/
def asWritten (d : Scaled) : Scaled :=
  let leading := d.exponent + (((toString d.digits).length : ℤ) - 1)
  if (-5 ≤ leading ∧ leading ≤ 15) ∧ 0 ≤ d.exponent then ⟨d.digits * Nat.pow 10 (d.exponent.toNat + 1), -1⟩ else d

theorem asWritten_value (d : Scaled) : (asWritten d).value = d.value := by
  unfold asWritten
  dsimp only
  split_ifs with h
  · obtain ⟨k, hk⟩ := Int.eq_ofNat_of_zero_le h.2
    rw [Scaled.value, Scaled.value, hk]
    dsimp only
    rw [Int.toNat_natCast, Nat.pow_eq, Nat.cast_mul, Nat.cast_pow, pow_succ, zpow_neg_one, zpow_natCast]
    field_simp
  · rfl

theorem asWritten_digits_pos {d : Scaled} (h : 0 < d.digits) : 0 < (asWritten d).digits := by
  unfold asWritten
  dsimp only
  split_ifs
  · exact Nat.mul_pos h (Nat.pow_pos (by norm_num))
  · exact h

theorem asWritten_exponent {d : Scaled} {k : ℤ} (h : k ≤ d.exponent) (hk : k ≤ -1) :
    k ≤ (asWritten d).exponent := by
  unfold asWritten
  dsimp only
  split_ifs
  · exact hk
  · exact h

theorem asWritten_digits {d : Scaled} (h : d.digits ≤ 10 ^ 17) : (asWritten d).digits ≤ 10 ^ 17 := by
  unfold asWritten
  dsimp only
  split_ifs with hfull
  · have hlength : d.digits < 10 ^ (toString d.digits).length := by
      rw [Nat.toString_eq_repr]
      exact (Nat.length_repr_le_iff Nat.length_repr_pos).mp le_rfl
    calc d.digits * Nat.pow 10 (d.exponent.toNat + 1)
        ≤ 10 ^ (toString d.digits).length * 10 ^ (d.exponent.toNat + 1) := Nat.mul_le_mul_right _ hlength.le
      _ = 10 ^ ((toString d.digits).length + (d.exponent.toNat + 1)) := (pow_add _ _ _).symm
      _ ≤ 10 ^ 17 := Nat.pow_le_pow_right (by norm_num) (by omega)
  · exact h

def written (x : Float) : Scaled :=
  match decode x with
  | .finite _ m e => asWritten (shortest .toEven m e)
  | _ => ⟨0, 0⟩

def magnitude (d : Scaled) : Float :=
  if 0 ≤ d.exponent then ofNat d.digits * Number.powerOfTen d.exponent.toNat
  else Number.divideBy 4 (ofNat d.digits) (-d.exponent).toNat

/-- The double that is read from the text of a double. -/
def reread (x : Float) : Float :=
  if isNegative x then -magnitude (written x) else magnitude (written x)

def IsShort (d : Scaled) : Prop := d.digits ≤ 2 ^ 53 ∧ -22 ≤ d.exponent ∧ d.exponent ≤ 22

instance (d : Scaled) : Decidable (IsShort d) := inferInstanceAs (Decidable (_ ∧ _))

/-! ## Reading it -/

theorem isInf_of_isFinite {x : Float} (h : x.isFinite = true) : x.isInf = false := by
  change x.toModel.unpack.isFinite = true at h
  change x.toModel.unpack.isInf = false
  cases hu : x.toModel.unpack with
  | infinity s =>
      rw [hu] at h
      cases h
  | _ => rfl

theorem scale_eq (negative : Bool) {d : Scaled} (h : 0 ≤ d.exponent →
    d.exponent ≤ 308 ∧ (ofNat d.digits * Number.powerOfTen d.exponent.toNat).isFinite = true) :
    Number.scale negative d.digits d.exponent = .ok (if negative then -magnitude d else magnitude d) := by
  unfold Number.scale magnitude
  dsimp only
  by_cases hsign : 0 ≤ d.exponent
  · obtain ⟨hrange, hfinite⟩ := h hsign
    rw [if_pos hsign, if_pos hsign, if_pos hrange, isInf_of_isFinite hfinite]
    rfl
  · rw [if_neg hsign, if_neg hsign]

theorem magnitude_spec {d : Scaled} {r : ℝ} (h : IsShort d) (hr : nearestValue d.value = (r : EReal)) :
    (magnitude d).isFinite = true ∧ real (magnitude d) = r := by
  obtain ⟨hdigits, hlow, hhigh⟩ := h
  obtain ⟨hs, hsr⟩ := real_ofNat hdigits
  unfold magnitude
  split_ifs with hsign
  · obtain ⟨k, hk⟩ := Int.eq_ofNat_of_zero_le hsign
    obtain ⟨hp, -⟩ := Number.one_le_powerOfTen (n := k) (by omega)
    have hvalue : d.value = real (ofNat d.digits) * real (Number.powerOfTen k) := by
      rw [Scaled.value, hsr, Number.real_powerOfTen (by omega), hk, zpow_natCast, Nat.cast_pow]
    obtain ⟨hdefined, hproduct⟩ := mul_spec hs hp
    rw [hk, Int.toNat_natCast]
    exact real_of_value hdefined (hproduct.trans (hvalue ▸ hr))
  · obtain ⟨k, hk⟩ : ∃ k : ℕ, d.exponent = -(k : ℤ) := ⟨(-d.exponent).toNat, by omega⟩
    obtain ⟨hp, hp₁⟩ := Number.one_le_powerOfTen (n := k) (by omega)
    have hvalue : d.value = real (ofNat d.digits) / real (Number.powerOfTen k) := by
      rw [Scaled.value, hsr, Number.real_powerOfTen (by omega), hk, zpow_neg, zpow_natCast, Nat.cast_pow,
        div_eq_mul_inv]
    obtain ⟨hdefined, hquotient⟩ := div_spec hs hp (zero_lt_one.trans_le hp₁).ne'
    rw [hk, neg_neg, Int.toNat_natCast, Number.divideBy, if_pos (by omega)]
    exact real_of_value hdefined (hquotient.trans (hvalue ▸ hr))

private theorem high_le_largest {m : ℕ} {e : ℤ} (hbits : m < 2 ^ 53) (hhigh : e ≤ 971)
    (hmax : ¬ (m = 2 ^ 53 - 1 ∧ e = 971)) :
    ((4 * m + 2 : ℕ) : ℝ) * ((2 : ℕ) : ℝ) ^ (e - 2) ≤ (Number.largest : ℕ) := by
  have hpower (k : ℕ) : ((2 : ℕ) : ℝ) ^ ((k : ℤ) + 968) = ((2 ^ k : ℕ) : ℝ) * ((2 : ℕ) : ℝ) ^ (968 : ℤ) := by
    rw [zpow_add₀ (by norm_num), zpow_natCast, Nat.cast_pow]
  have hpos : 0 ≤ ((2 : ℕ) : ℝ) ^ (968 : ℤ) := by positivity
  rw [Number.cast_largest, show (971 : ℤ) = (3 : ℕ) + 968 by norm_num, hpower, ← mul_assoc]
  rcases hhigh.lt_or_eq with hless | rfl
  · have hunit : ((2 : ℕ) : ℝ) ^ (e - 2) ≤ ((2 : ℕ) : ℝ) ^ (968 : ℤ) :=
      zpow_le_zpow_right₀ (by norm_num) (by omega)
    have hends : ((4 * m + 2 : ℕ) : ℝ) ≤ (4 * (2 ^ 53 - 1) + 2 : ℕ) := by exact_mod_cast (by omega)
    calc ((4 * m + 2 : ℕ) : ℝ) * ((2 : ℕ) : ℝ) ^ (e - 2)
        ≤ (4 * (2 ^ 53 - 1) + 2 : ℕ) * ((2 : ℕ) : ℝ) ^ (968 : ℤ) :=
          mul_le_mul hends hunit (by positivity) (by positivity)
      _ ≤ (2 ^ 53 - 1) * ((2 ^ 3 : ℕ) : ℝ) * ((2 : ℕ) : ℝ) ^ (968 : ℤ) :=
          mul_le_mul_of_nonneg_right (by norm_num) hpos
  · have hbelow : m ≤ 2 ^ 53 - 2 := by
      have hne : m ≠ 2 ^ 53 - 1 := fun h => hmax ⟨h, rfl⟩
      omega
    have hends : ((4 * m + 2 : ℕ) : ℝ) ≤ (4 * (2 ^ 53 - 2) + 2 : ℕ) := by exact_mod_cast (by omega)
    rw [show (971 : ℤ) - 2 = (1 : ℕ) + 968 by norm_num, hpower, ← mul_assoc]
    refine mul_le_mul_of_nonneg_right ?_ hpos
    calc ((4 * m + 2 : ℕ) : ℝ) * ((2 ^ 1 : ℕ) : ℝ) ≤ (4 * (2 ^ 53 - 2) + 2 : ℕ) * ((2 ^ 1 : ℕ) : ℝ) :=
          mul_le_mul_of_nonneg_right hends (by positivity)
      _ ≤ _ := by norm_num

/-- The shortest decimal does not pass the largest double: of two points around this one the lower is nearer. -/
theorem shortest_le_largest {m : ℕ} {e : ℤ} (hm : 0 < m) (hbits : m < 2 ^ 53) (hlow : -1074 ≤ e)
    (hhigh : e ≤ 971) : (shortest .toEven m e).value ≤ (Number.largest : ℕ) := by
  by_cases hmax : m = Nat.pow 2 53 - 1 ∧ e = 971
  · obtain ⟨rfl, rfl⟩ := hmax
    have hshortest : shortest .toEven (Nat.pow 2 53 - 1) 971 = ⟨17976931348623157, (292 : ℕ)⟩ := by decide +kernel
    have hle : Number.scaledUp 17976931348623157 10 292 ≤ Number.largest := by decide +kernel
    rw [← Nat.cast_le (α := ℝ), Number.cast_scaledUp] at hle
    rw [hshortest]
    exact hle
  · exact (Decimal.shortest_covers hm hbits hlow hhigh .toEven).bounds.2.trans (high_le_largest hbits hhigh hmax)

/-! ## The double that was written -/

theorem written_eq {x : Float} {negative : Bool} {m : ℕ} {e : ℤ} (hx : decode x = .finite negative m e) :
    written x = asWritten (shortest .toEven m e) := by
  rw [written, hx]

theorem written_zero {x : Float} {negative : Bool} {e : ℤ} (hx : decode x = .finite negative 0 e) :
    written x = ⟨0, -1⟩ := by
  rw [written_eq hx, shortest, if_pos rfl]
  decide

theorem shortest_product {m : ℕ} {e : ℤ} (hm : 0 < m) (hbits : m < 2 ^ 53) (hlow : -1074 ≤ e) (hhigh : e ≤ 971)
    (h : 0 ≤ (shortest .toEven m e).exponent) : (shortest .toEven m e).exponent ≤ 308 ∧
      (ofNat (shortest .toEven m e).digits *
        Number.powerOfTen (shortest .toEven m e).exponent.toNat).isFinite = true := by
  obtain ⟨k, hk⟩ := Int.eq_ofNat_of_zero_le h
  have hlargest := shortest_le_largest hm hbits hlow hhigh
  rw [Scaled.value, hk, ← Number.cast_scaledUp, Nat.cast_le] at hlargest
  rw [hk, Int.toNat_natCast]
  obtain ⟨hrange, hfinite⟩ := Number.isFinite_product (Decimal.shortest_digits_pos hm hbits hlow hhigh .toEven)
    (Decimal.shortest_digits_le hm hbits hlow hhigh .toEven) hlargest
  exact ⟨by exact_mod_cast hrange, hfinite⟩

theorem written_product {x : Float} (hx : x.isFinite = true) (hsign : 0 ≤ (written x).exponent) :
    (written x).exponent ≤ 308 ∧
      (ofNat (written x).digits * Number.powerOfTen (written x).exponent.toNat).isFinite = true := by
  obtain ⟨negative, m, e, hdecode, hbits, hlow, hhigh, -, -⟩ := decode_finite hx
  rcases Nat.eq_zero_or_pos m with rfl | hm
  · rw [written_zero hdecode] at hsign
    cases hsign
  · rw [written_eq hdecode] at hsign ⊢
    have hkept : asWritten (shortest .toEven m e) = shortest .toEven m e := by
      unfold asWritten at hsign ⊢
      dsimp only at hsign ⊢
      split_ifs at hsign ⊢ with hfull
      · cases hsign
      · rfl
    rw [hkept] at hsign ⊢
    exact shortest_product hm hbits hlow hhigh hsign

theorem scale_written {x : Float} (hx : x.isFinite = true) :
    Number.scale (isNegative x) (written x).digits (written x).exponent = .ok (reread x) :=
  scale_eq _ (written_product hx)

theorem reread_eq {x : Float} (hx : x.isFinite = true) (h : IsShort (written x)) : reread x = x := by
  obtain ⟨negative, m, e, hdecode, hbits, hlow, hhigh, hfull, hreal⟩ := decode_finite hx
  rcases Nat.eq_zero_or_pos m with rfl | hm
  · rw [reread, written_zero hdecode, isNegative_of_decode hdecode, eq_zero_of_decode hdecode]
    cases negative <;> decide
  · rw [written_eq hdecode] at h
    have hvalue : nearestValue (asWritten (shortest .toEven m e)).value = ((m * 2 ^ e : ℝ) : EReal) := by
      rw [asWritten_value]
      exact nearestValue_of_covers hm hbits hlow hfull hhigh (Decimal.shortest_covers hm hbits hlow hhigh .toEven)
    obtain ⟨hfinite, hmagnitude⟩ := magnitude_spec h hvalue
    have hpos : (0 : ℝ) < m * 2 ^ e := by positivity
    rw [reread, written_eq hdecode, isNegative_of_decode hdecode]
    cases negative with
    | false => exact eq_of_real (hmagnitude.trans hreal.symm) (hmagnitude ▸ hpos.ne')
    | true =>
        have hneg := real_neg (magnitude (asWritten (shortest .toEven m e)))
        rw [hmagnitude] at hneg
        exact eq_of_real (hneg.trans hreal.symm) (hneg ▸ (neg_neg_of_pos hpos).ne)

end WorkloadSynth.Json
