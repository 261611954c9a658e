import WorkloadSynth.Proofs.Binary64.Value

/-!
# Arithmetic on doubles

On finite operands each operation is defined, and its value is that of the exact result, rounded once:
`add_spec`, `sub_spec`, `mul_spec`, `div_spec`, `sqrt_spec`.  All that is said of the order of results
follows from that and from the monotony of rounding.  An infinite operand is let in only where
the result is defined all the same.
-/

set_option autoImplicit false

namespace WorkloadSynth.Binary64

open Float.Model (Format UnpackedFloat totalExponent)
open Float.Model.UnpackedFloat

/-! ## Signs -/

theorem signed_neg (s : Sign) (x : ℝ) : signed (-s) x = -signed s x := by
  cases s
  · exact (neg_neg x).symm
  · rfl

theorem unpack_neg (x : Float) : (-x).toModel.unpack = UnpackedFloat.neg x.toModel.unpack := by
  have hc := canonical_unpacked x
  have hr : InRange x.toModel.unpack := inRange_unpack _
  change unpack Format.binary64 (pack Format.binary64 (UnpackedFloat.neg x.toModel.unpack)) = _
  cases hu : x.toModel.unpack <;> rw [hu] at hc hr <;> exact unpack_pack hc hr

theorem unpack_abs (x : Float) : x.abs.toModel.unpack = UnpackedFloat.abs x.toModel.unpack := by
  have hc := canonical_unpacked x
  have hr : InRange x.toModel.unpack := inRange_unpack _
  change unpack Format.binary64 (pack Format.binary64 (UnpackedFloat.abs x.toModel.unpack)) = _
  cases hu : x.toModel.unpack <;> rw [hu] at hc hr <;> exact unpack_pack hc hr

theorem isFinite_neg (x : Float) : (-x).isFinite = x.isFinite := by
  change (-x).toModel.unpack.isFinite = x.toModel.unpack.isFinite
  rw [unpack_neg]
  cases x.toModel.unpack <;> rfl

theorem real_neg (x : Float) : real (-x) = -real x := by
  rw [real, unpack_neg, real]
  cases x.toModel.unpack with
  | finite s m e hm => exact signed_neg s _
  | _ => exact (neg_zero (G := ℝ)).symm

theorem value_neg (x : Float) : value (-x) = -value x := by
  rw [value, unpack_neg, value]
  cases x.toModel.unpack with
  | infinity s => cases s <;> rfl
  | finite s m e hm => exact congrArg Real.toEReal (signed_neg s _)
  | _ => exact neg_zero.symm

theorem defined_neg {x : Float} (hx : x ≤ x) : -x ≤ -x := by
  rw [defined_iff] at hx ⊢
  rw [unpack_neg]
  cases hu : x.toModel.unpack with
  | notANumber => rw [hu] at hx; cases hx
  | _ => rfl

theorem abs_spec {x : Float} (hx : x.isFinite = true) : x.abs.isFinite = true ∧ real x.abs = |real x| := by
  change x.toModel.unpack.isFinite = true at hx
  change x.abs.toModel.unpack.isFinite = true ∧
    exactValue x.abs.toModel.unpack = |exactValue x.toModel.unpack|
  rw [unpack_abs]
  cases hu : x.toModel.unpack with
  | zero s => exact ⟨rfl, (abs_zero (α := ℝ)).symm⟩
  | finite s m e hm =>
      have hnn : (0 : ℝ) ≤ m * 2 ^ e := by positivity
      refine ⟨rfl, ?_⟩
      cases s
      · exact (by rw [exactValue, signed, abs_neg, abs_of_nonneg hnn]; rfl)
      · exact (abs_of_nonneg hnn).symm
  | _ => rw [hu] at hx; cases hx

/-- Subtraction adds the negative, signed zeros and infinite operands included. -/
theorem sub_eq_add (x y : Float) : x - y = x + -y := by
  change ofUnpacked (UnpackedFloat.sub _ x.toModel.unpack y.toModel.unpack) =
    ofUnpacked (UnpackedFloat.add _ x.toModel.unpack (-y).toModel.unpack)
  rw [unpack_neg]
  congr 1
  cases x.toModel.unpack with
  | notANumber => cases y.toModel.unpack <;> rfl
  | infinity s =>
      cases y.toModel.unpack with
      | infinity t => cases s <;> cases t <;> rfl
      | _ => rfl
  | zero s =>
      cases y.toModel.unpack with
      | zero t => cases s <;> cases t <;> rfl
      | _ => rfl
  | finite s m e hm =>
      cases y.toModel.unpack with
      | finite t n f hn =>
          simp only [UnpackedFloat.sub, UnpackedFloat.add, UnpackedFloat.neg]
          cases t <;> simp [Sign.apply, Int.sub_eq_add_neg]
      | _ => rfl

/-! ## Exact results -/

theorem le_target {m : ℕ} {e : ℤ} (h : 2 ^ 52 ≤ m ∨ e ≤ -1074) :
    e ≤ Format.binary64.targetExponent (totalExponent m e) := by
  rw [targetExponent_eq]
  rcases h with h | h
  · have := (Nat.le_log2 (by omega)).mpr h
    omega
  · omega

theorem signed_eq_apply (s : Sign) (m : ℕ) (x : ℝ) : signed s (m * x) = (s.apply m : ℤ) * x := by
  cases s <;> simp [signed, Sign.apply]

theorem signed_mul_signed (s t : Sign) (x y : ℝ) : signed (s * t) (x * y) = signed s x * signed t y := by
  cases s <;> cases t <;> simp only [signed, neg_mul, mul_neg, neg_neg]

theorem signed_div_signed (s t : Sign) (x y : ℝ) : signed (s / t) (x / y) = signed s x / signed t y := by
  cases s <;> cases t <;> simp only [signed, neg_div, div_neg, neg_neg] <;> rfl

private theorem decreased_value (m : ℕ) {e t : ℤ} (h : t ≤ e) :
    ((decreaseExponent m e t).1 : ℝ) * 2 ^ t = m * 2 ^ e := by
  obtain ⟨k, hk⟩ := Int.eq_ofNat_of_zero_le (sub_nonneg.mpr h)
  simp only [decreaseExponent, hk, Int.toNat_natCast, Nat.shiftLeft_eq]
  rw [show e = k + t by omega, zpow_add₀ (by norm_num), zpow_natCast]
  push_cast
  ring

private theorem signed_decreased (s : Sign) (m : ℕ) {e t : ℤ} (h : t ≤ e) :
    (s.apply (decreaseExponent m e t).1 : ℤ) * (2 : ℝ) ^ t = signed s (m * 2 ^ e) := by
  rw [← signed_eq_apply, decreased_value m h]

theorem add_unpacked {u v : UnpackedFloat} (hu : Canonical u) (hv : Canonical v)
    (hfu : u.isFinite = true) (hfv : v.isFinite = true) :
    Canonical (UnpackedFloat.add Format.binary64 u v) ∧
      (UnpackedFloat.add Format.binary64 u v).isFinite = true ∧
      exactValue (UnpackedFloat.add Format.binary64 u v) = rounded (exactValue u + exactValue v) := by
  cases u with
  | notANumber => cases hfu
  | infinity s => cases hfu
  | zero s =>
      cases v with
      | notANumber => cases hfv
      | infinity t => cases hfv
      | zero t => cases s <;> cases t <;> exact ⟨trivial, rfl, by simp [exactValue, rounded_zero]; rfl⟩
      | finite t n f hn =>
          refine ⟨hv, rfl, ?_⟩
          rw [show exactValue (zero s) = 0 from rfl, zero_add, rounded_exactValue hv]
          rfl
  | finite s m e hm =>
      cases v with
      | notANumber => cases hfv
      | infinity t => cases hfv
      | zero t =>
          refine ⟨hu, rfl, ?_⟩
          rw [show exactValue (zero t) = 0 from rfl, add_zero, rounded_exactValue hu]
          rfl
      | finite t n f hn =>
          have hsum : exactValue (.finite s m e hm) + exactValue (.finite t n f hn) =
              (s.apply (decreaseExponent m e (min e f)).1 + t.apply (decreaseExponent n f (min e f)).1
                : ℤ) * (2 : ℝ) ^ min e f := by
            push_cast
            rw [add_mul, signed_decreased s m (min_le_left e f), signed_decreased t n (min_le_right e f)]
            rfl
          rw [hsum]
          exact normalize_spec _ _ _

private theorem product_bits {m n : ℕ} {e f : ℤ} (hm : 0 < m) (hn : 0 < n)
    (h₁ : 2 ^ 52 ≤ m ∨ e = -1074) (h₂ : 2 ^ 52 ≤ n ∨ f = -1074) :
    2 ^ 52 ≤ m * n ∨ e + f ≤ -1074 := by
  rcases h₁ with h₁ | h₁
  · exact Or.inl (h₁.trans (Nat.le_mul_of_pos_right m hn))
  · rcases h₂ with h₂ | h₂
    · exact Or.inl (h₂.trans (Nat.le_mul_of_pos_left n hm))
    · exact Or.inr (by omega)

theorem mul_unpacked {u v : UnpackedFloat} (hu : Canonical u) (hv : Canonical v)
    (hfu : u.isFinite = true) (hfv : v.isFinite = true) :
    Canonical (UnpackedFloat.mul Format.binary64 u v) ∧
      (UnpackedFloat.mul Format.binary64 u v).isFinite = true ∧
      exactValue (UnpackedFloat.mul Format.binary64 u v) = rounded (exactValue u * exactValue v) := by
  cases u with
  | notANumber => cases hfu
  | infinity s => cases hfu
  | zero s =>
      rw [show exactValue (zero s) = 0 from rfl, zero_mul, rounded_zero]
      cases v with
      | notANumber => cases hfv
      | infinity t => cases hfv
      | _ => exact ⟨trivial, rfl, rfl⟩
  | finite s m e hm =>
      cases v with
      | notANumber => cases hfv
      | infinity t => cases hfv
      | zero t =>
          rw [show exactValue (zero t) = 0 from rfl, mul_zero, rounded_zero]
          exact ⟨trivial, rfl, rfl⟩
      | finite t n f hn =>
          have hproduct : exactValue (.finite s m e hm) * exactValue (.finite t n f hn) =
              signed (s * t) ((m * n : ℕ) * 2 ^ (e + f)) := by
            simp only [exactValue]
            rw [← signed_mul_signed, zpow_add₀ (by norm_num)]
            push_cast
            ring_nf
          rw [hproduct, rounded_signed _ (by positivity)]
          exact roundWithAccuracy_spec _ (by positivity) rfl
            (le_target (product_bits hm hn hu.2.2 hv.2.2))

private theorem quotient_bits {m₁ m₂ k : ℕ} (h₁ : 0 < m₁) (h₂ : 0 < m₂)
    (hk : 53 + m₂.log2 ≤ m₁.log2 + k) : 2 ^ 52 ≤ (m₁ <<< k) / m₂ := by
  rw [Nat.le_div_iff_mul_le h₂, Nat.shiftLeft_eq]
  have hdivisor : m₂ ≤ 2 ^ (m₂.log2 + 1) := (Nat.lt_log2_self (n := m₂)).le
  have hdividend : 2 ^ m₁.log2 ≤ m₁ := Nat.log2_self_le h₁.ne'
  calc 2 ^ 52 * m₂ ≤ 2 ^ 52 * 2 ^ (m₂.log2 + 1) := Nat.mul_le_mul_left _ hdivisor
    _ = 2 ^ (53 + m₂.log2) := by rw [← pow_add]; congr 1; omega
    _ ≤ 2 ^ (m₁.log2 + k) := Nat.pow_le_pow_right two_pos hk
    _ = 2 ^ m₁.log2 * 2 ^ k := pow_add _ _ _
    _ ≤ m₁ * 2 ^ k := Nat.mul_le_mul_right _ hdividend

theorem div_unpacked {u v : UnpackedFloat} (hfu : u.isFinite = true) (hfv : v.isFinite = true)
    (hv : exactValue v ≠ 0) :
    Canonical (UnpackedFloat.div Format.binary64 u v) ∧
      (UnpackedFloat.div Format.binary64 u v).isFinite = true ∧
      exactValue (UnpackedFloat.div Format.binary64 u v) = rounded (exactValue u / exactValue v) := by
  cases v with
  | notANumber => cases hfv
  | infinity t => cases hfv
  | zero t => exact absurd rfl hv
  | finite t n f hn =>
      cases u with
      | notANumber => cases hfu
      | infinity s => cases hfu
      | zero s =>
          rw [show exactValue (zero s) = 0 from rfl, zero_div, rounded_zero]
          exact ⟨trivial, rfl, rfl⟩
      | finite s m e hm =>
          rw [show UnpackedFloat.div Format.binary64 (.finite s m e hm) (.finite t n f hn) =
            roundWithAccuracy Format.binary64 (s / t) (divCore Format.binary64 m e n f).1
              (divCore Format.binary64 m e n f).2.1 (divCore Format.binary64 m e n f).2.2 from rfl]
          simp only [divCore]
          generalize hr : min (e - f)
            (Format.binary64.targetExponent (totalExponent m e - totalExponent n f)) = r
          have htarget : Format.binary64.targetExponent (totalExponent m e - totalExponent n f) =
              max ((m.log2 : ℤ) + e - n.log2 - f - 53) (-1074) := by
            simp only [Format.targetExponent, totalExponent, Format.mantissaBits, Format.minExponent]
            omega
          rw [htarget] at hr
          generalize hk : (e - f - r).toNat = k
          have hkr : (k : ℤ) = e - f - r := by omega
          have hbits : 2 ^ 52 ≤ (m <<< k) / n ∨ r ≤ -1074 := by
            by_cases hlow : r ≤ -1074
            · exact Or.inr hlow
            · exact Or.inl (quotient_bits hm hn (by omega))
          have hquotient : exactValue (.finite s m e hm) / exactValue (.finite t n f hn) =
              signed (s / t) (((m <<< k : ℕ) : ℝ) / n * 2 ^ r) := by
            simp only [exactValue]
            rw [← signed_div_signed]
            congr 1
            have hn' : (n : ℝ) ≠ 0 := by exact_mod_cast hn.ne'
            rw [show e = k + r + f by omega, zpow_add₀ (by norm_num), zpow_add₀ (by norm_num),
              zpow_natCast, Nat.shiftLeft_eq]
            push_cast
            field_simp
          rw [hquotient, rounded_signed _ (by positivity)]
          refine roundWithAccuracy_spec _ ?_ (cutAt_quotient _ n hn) (le_target hbits)
          rw [Nat.shiftLeft_eq]
          positivity

/-- Where the whole root is taken, the rest says on which side of the half the root lies. -/
theorem cutAt_sqrt (a : ℕ) :
    CutAt a.sqrt (√(a : ℝ)) (if a - a.sqrt * a.sqrt = 0 then .exact
      else .inexact (if a - a.sqrt * a.sqrt ≤ a.sqrt then .lt else .gt)) := by
  have hlow : a.sqrt * a.sqrt ≤ a := Nat.sqrt_le a
  have hhigh : a < (a.sqrt + 1) * (a.sqrt + 1) := Nat.lt_succ_sqrt a
  generalize a.sqrt = r at *
  have hrest : (a : ℝ) = r * r + (a - r * r : ℕ) := by
    rw [Nat.cast_sub hlow]
    push_cast
    ring
  have hnext : a - r * r ≤ 2 * r := by
    have : (r + 1) * (r + 1) = r * r + 2 * r + 1 := by ring
    omega
  generalize a - r * r = rest at *
  rw [hrest]
  split_ifs with hz hle
  · rw [CutAt, hz]
    simp
  · have h₁ : (1 : ℝ) ≤ rest := by exact_mod_cast Nat.pos_of_ne_zero hz
    have h₂ : (rest : ℝ) ≤ r := by exact_mod_cast hle
    exact ⟨Real.lt_sqrt_of_sq_lt (by nlinarith), (Real.sqrt_lt' (by positivity)).mpr (by nlinarith)⟩
  · have h₁ : (r : ℝ) + 1 ≤ rest := by exact_mod_cast Nat.lt_of_not_le hle
    have h₂ : (rest : ℝ) ≤ 2 * r := by exact_mod_cast hnext
    exact ⟨Real.lt_sqrt_of_sq_lt (by nlinarith), (Real.sqrt_lt' (by positivity)).mpr (by nlinarith)⟩

theorem sqrt_unpacked {u : UnpackedFloat} (hfu : u.isFinite = true) (hu : 0 ≤ exactValue u) :
    Canonical (UnpackedFloat.sqrt Format.binary64 u) ∧
      (UnpackedFloat.sqrt Format.binary64 u).isFinite = true ∧
      exactValue (UnpackedFloat.sqrt Format.binary64 u) = rounded (√(exactValue u)) := by
  cases u with
  | notANumber => cases hfu
  | infinity s => cases hfu
  | zero s =>
      rw [show exactValue (zero s) = 0 from rfl, Real.sqrt_zero, rounded_zero]
      exact ⟨trivial, rfl, rfl⟩
  | finite s m e hm =>
      have hsize : (0 : ℝ) < m * 2 ^ e := by positivity
      cases s with
      | negative => exact absurd hu (not_le.mpr (neg_neg_of_pos hsize))
      | positive =>
          rw [show UnpackedFloat.sqrt Format.binary64 (.finite .positive m e hm) =
            roundWithAccuracy Format.binary64 .positive (sqrtCore Format.binary64 m e).1
              (sqrtCore Format.binary64 m e).2.1 (sqrtCore Format.binary64 m e).2.2 from rfl]
          simp only [sqrtCore]
          -- The radicand is brought to an even exponent, half of which is that of the root.
          generalize hr : min (e.ediv 2)
            (Format.binary64.targetExponent ((totalExponent m e + 1).ediv 2)) = r
          have htarget : Format.binary64.targetExponent ((totalExponent m e + 1).ediv 2) =
              max (((m.log2 : ℤ) + 1 + e + 1) / 2 - 53) (-1074) := rfl
          rw [htarget, show e.ediv 2 = e / 2 from rfl] at hr
          generalize hk : (e - 2 * r).toNat = k
          have hkr : (k : ℤ) = e - 2 * r := by omega
          have hbits : 2 ^ 52 ≤ (m <<< k).sqrt ∨ r ≤ -1074 := by
            by_cases hlow : r ≤ -1074
            · exact Or.inr hlow
            · left
              have hlog : 104 ≤ m.log2 + k := by omega
              rw [Nat.le_sqrt, Nat.shiftLeft_eq]
              calc 2 ^ 52 * 2 ^ 52 = 2 ^ 104 := by norm_num
                _ ≤ 2 ^ (m.log2 + k) := Nat.pow_le_pow_right two_pos hlog
                _ = 2 ^ m.log2 * 2 ^ k := pow_add _ _ _
                _ ≤ m * 2 ^ k := Nat.mul_le_mul_right _ (Nat.log2_self_le hm.ne')
          have hroot : √(exactValue (.finite .positive m e hm)) = √((m <<< k : ℕ) : ℝ) * 2 ^ r := by
            have hpow : (2 : ℝ) ^ e = 2 ^ k * (2 ^ r) ^ 2 := by
              rw [← zpow_natCast (2 ^ r) 2, ← zpow_mul, ← zpow_natCast 2 k, ← zpow_add₀ (by norm_num)]
              congr 1
              push_cast
              omega
            simp only [exactValue, signed]
            rw [hpow, Nat.shiftLeft_eq, ← mul_assoc, Real.sqrt_mul (by positivity),
              Real.sqrt_sq (by positivity)]
            push_cast
            rfl
          rw [hroot, rounded_of_nonneg (by positivity)]
          refine roundWithAccuracy_spec .positive ?_ (cutAt_sqrt _) (le_target hbits)
          rw [Real.sqrt_pos, Nat.shiftLeft_eq]
          positivity

/-! ## Results on doubles -/

theorem add_spec {x y : Float} (hx : x.isFinite = true) (hy : y.isFinite = true) :
    x + y ≤ x + y ∧ value (x + y) = nearestValue (real x + real y) := by
  obtain ⟨hc, hf, hv⟩ := add_unpacked (canonical_unpacked x) (canonical_unpacked y) hx hy
  rw [real, real, nearestValue, ← hv]
  exact ofUnpacked_spec hc hf

theorem sub_spec {x y : Float} (hx : x.isFinite = true) (hy : y.isFinite = true) :
    x - y ≤ x - y ∧ value (x - y) = nearestValue (real x - real y) := by
  rw [sub_eq_add, sub_eq_add_neg, ← real_neg]
  exact add_spec hx ((isFinite_neg y).trans hy)

theorem mul_spec {x y : Float} (hx : x.isFinite = true) (hy : y.isFinite = true) :
    x * y ≤ x * y ∧ value (x * y) = nearestValue (real x * real y) := by
  obtain ⟨hc, hf, hv⟩ := mul_unpacked (canonical_unpacked x) (canonical_unpacked y) hx hy
  rw [real, real, nearestValue, ← hv]
  exact ofUnpacked_spec hc hf

theorem div_spec {x y : Float} (hx : x.isFinite = true) (hy : y.isFinite = true) (h : real y ≠ 0) :
    x / y ≤ x / y ∧ value (x / y) = nearestValue (real x / real y) := by
  obtain ⟨hc, hf, hv⟩ := div_unpacked hx hy h
  rw [real, real, nearestValue, ← hv]
  exact ofUnpacked_spec hc hf

theorem sqrt_spec {x : Float} (hx : x.isFinite = true) (h : 0 ≤ real x) :
    x.sqrt ≤ x.sqrt ∧ value x.sqrt = nearestValue (√(real x)) := by
  obtain ⟨hc, hf, hv⟩ := sqrt_unpacked hx h
  rw [real, nearestValue, ← hv]
  exact ofUnpacked_spec hc hf

/-! ## The order of results -/

section Order

variable {a b c d : Float}

theorem add_mono (ha : a.isFinite = true) (hb : b.isFinite = true) (hc : c.isFinite = true)
    (hd : d.isFinite = true) (h : a ≤ b) (h' : c ≤ d) : a + c ≤ b + d := by
  obtain ⟨hl, hlv⟩ := add_spec ha hc
  obtain ⟨hr, hrv⟩ := add_spec hb hd
  rw [le_iff, hlv, hrv]
  exact ⟨hl, hr, nearestValue_mono (add_le_add ((real_le_real ha hb).mpr h) ((real_le_real hc hd).mpr h'))⟩

theorem sub_mono (ha : a.isFinite = true) (hb : b.isFinite = true) (hc : c.isFinite = true)
    (hd : d.isFinite = true) (h : a ≤ b) (h' : d ≤ c) : a - c ≤ b - d := by
  obtain ⟨hl, hlv⟩ := sub_spec ha hc
  obtain ⟨hr, hrv⟩ := sub_spec hb hd
  rw [le_iff, hlv, hrv]
  exact ⟨hl, hr, nearestValue_mono (sub_le_sub ((real_le_real ha hb).mpr h) ((real_le_real hd hc).mpr h'))⟩

theorem mul_mono (ha : a.isFinite = true) (hb : b.isFinite = true) (hc : c.isFinite = true)
    (hd : d.isFinite = true) (h : a ≤ b) (h' : c ≤ d) (hb₀ : 0 ≤ real b) (hc₀ : 0 ≤ real c) :
    a * c ≤ b * d := by
  obtain ⟨hl, hlv⟩ := mul_spec ha hc
  obtain ⟨hr, hrv⟩ := mul_spec hb hd
  rw [le_iff, hlv, hrv]
  exact ⟨hl, hr, nearestValue_mono
    (mul_le_mul ((real_le_real ha hb).mpr h) ((real_le_real hc hd).mpr h') hc₀ hb₀)⟩

theorem div_mono (ha : a.isFinite = true) (hb : b.isFinite = true) (hc : c.isFinite = true)
    (h : a ≤ b) (hc₀ : 0 < real c) : a / c ≤ b / c := by
  obtain ⟨hl, hlv⟩ := div_spec ha hc hc₀.ne'
  obtain ⟨hr, hrv⟩ := div_spec hb hc hc₀.ne'
  rw [le_iff, hlv, hrv]
  exact ⟨hl, hr, nearestValue_mono (div_le_div_of_nonneg_right ((real_le_real ha hb).mpr h) hc₀.le)⟩

theorem sqrt_mono (ha : a.isFinite = true) (hb : b.isFinite = true) (h : a ≤ b) (ha₀ : 0 ≤ real a) :
    a.sqrt ≤ b.sqrt := by
  have hab := (real_le_real ha hb).mpr h
  obtain ⟨hl, hlv⟩ := sqrt_spec ha ha₀
  obtain ⟨hr, hrv⟩ := sqrt_spec hb (ha₀.trans hab)
  rw [le_iff, hlv, hrv]
  exact ⟨hl, hr, nearestValue_mono (Real.sqrt_le_sqrt hab)⟩

end Order

/-! ## Infinite operands -/

theorem exists_infinity {x : Float} (hx : x ≤ x) (h : ¬ x.isFinite = true) :
    ∃ s, x.toModel.unpack = .infinity s := by
  rw [defined_iff] at hx
  change ¬ x.toModel.unpack.isFinite = true at h
  cases hu : x.toModel.unpack with
  | infinity s => exact ⟨s, rfl⟩
  | notANumber => rw [hu] at hx; cases hx
  | _ => rw [hu] at h; exact absurd rfl h

theorem unpack_of_isFinite {x : Float} (hx : x.isFinite = true) :
    (∃ s, x.toModel.unpack = .zero s) ∨ ∃ s m e hm, x.toModel.unpack = .finite s m e hm := by
  change x.toModel.unpack.isFinite = true at hx
  cases hu : x.toModel.unpack with
  | zero s => exact .inl ⟨s, rfl⟩
  | finite s m e hm => exact .inr ⟨s, m, e, hm, rfl⟩
  | _ => rw [hu] at hx; cases hx

theorem unpack_of_real_ne_zero {x : Float} (hx : x.isFinite = true) (h : real x ≠ 0) :
    ∃ s m e hm, x.toModel.unpack = .finite s m e hm := by
  refine (unpack_of_isFinite hx).resolve_left ?_
  rintro ⟨s, hs⟩
  rw [real, hs] at h
  exact h rfl

theorem defined_infinity (s : Sign) : ofUnpacked (.infinity s) ≤ ofUnpacked (.infinity s) := by
  rw [defined_iff]
  cases s <;> rfl

theorem infinity_add {x y : Float} {s : Sign} (hx : x.toModel.unpack = .infinity s) (hy : y.isFinite = true) :
    x + y = ofUnpacked (.infinity s) := by
  change ofUnpacked (UnpackedFloat.add _ x.toModel.unpack y.toModel.unpack) = _
  rw [hx]
  rcases unpack_of_isFinite hy with ⟨t, ht⟩ | ⟨t, n, f, hn, ht⟩ <;> rw [ht] <;> rfl

theorem add_infinity {x y : Float} {s : Sign} (hx : x.isFinite = true) (hy : y.toModel.unpack = .infinity s) :
    x + y = ofUnpacked (.infinity s) := by
  change ofUnpacked (UnpackedFloat.add _ x.toModel.unpack y.toModel.unpack) = _
  rw [hy]
  rcases unpack_of_isFinite hx with ⟨t, ht⟩ | ⟨t, n, f, hn, ht⟩ <;> rw [ht] <;> rfl

theorem defined_add {x y : Float} (hx : x ≤ x) (hy : y.isFinite = true) : x + y ≤ x + y := by
  by_cases hfx : x.isFinite = true
  · exact (add_spec hfx hy).1
  · obtain ⟨s, hs⟩ := exists_infinity hx hfx
    rw [infinity_add hs hy]
    exact defined_infinity s

theorem defined_add_right {x y : Float} (hx : x.isFinite = true) (hy : y ≤ y) : x + y ≤ x + y := by
  by_cases hfy : y.isFinite = true
  · exact (add_spec hx hfy).1
  · obtain ⟨s, hs⟩ := exists_infinity hy hfy
    rw [add_infinity hx hs]
    exact defined_infinity s

theorem defined_sub {x y : Float} (hx : x ≤ x) (hy : y.isFinite = true) : x - y ≤ x - y := by
  rw [sub_eq_add]
  exact defined_add hx ((isFinite_neg y).trans hy)

theorem defined_sub_right {x y : Float} (hx : x.isFinite = true) (hy : y ≤ y) : x - y ≤ x - y := by
  rw [sub_eq_add]
  exact defined_add_right hx (defined_neg hy)

theorem add_mono_left {a b x : Float} (ha : a.isFinite = true) (hb : b.isFinite = true) (h : a ≤ b)
    (hx : x ≤ x) : a + x ≤ b + x := by
  by_cases hfx : x.isFinite = true
  · exact add_mono ha hb hfx hfx h hx
  · obtain ⟨s, hs⟩ := exists_infinity hx hfx
    rw [add_infinity ha hs, add_infinity hb hs]
    exact defined_infinity s

theorem value_add_of_infinite {x y : Float} (hx : x ≤ x) (h : ¬ x.isFinite = true) (hy : y.isFinite = true) :
    value (x + y) = value x := by
  obtain ⟨s, hs⟩ := exists_infinity hx h
  rw [infinity_add hs hy, value, value, hs]
  cases s <;> rfl

theorem add_mono_right {a b x : Float} (h : a ≤ b) (hx : x.isFinite = true) : a + x ≤ b + x := by
  obtain ⟨ha, hb, hvalue⟩ := le_iff.mp h
  refine le_iff.mpr ⟨defined_add ha hx, defined_add hb hx, ?_⟩
  by_cases hfa : a.isFinite = true
  · by_cases hfb : b.isFinite = true
    · exact (le_iff.mp (add_mono hfa hfb hx hx h (defined_of_isFinite hx))).2.2
    · have htop : value b = ⊤ := by
        by_contra hnt
        refine hfb (isFinite_iff.mpr ⟨hb, fun hbot => ?_, hnt⟩)
        exact (isFinite_iff.mp hfa).2.1 (le_bot_iff.mp (hbot ▸ hvalue))
      rw [value_add_of_infinite hb hfb hx, htop]
      exact le_top
  · rw [value_add_of_infinite ha hfa hx]
    by_cases hfb : b.isFinite = true
    · have hbot : value a = ⊥ := by
        by_contra hnb
        refine hfa (isFinite_iff.mpr ⟨ha, hnb, fun htop => ?_⟩)
        exact (isFinite_iff.mp hfb).2.2 (top_le_iff.mp (htop ▸ hvalue))
      rw [hbot]
      exact bot_le
    · rwa [value_add_of_infinite hb hfb hx]

theorem infinity_mul {x y : Float} {s : Sign} (hx : x.toModel.unpack = .infinity s) (hy : y.isFinite = true)
    (h : real y ≠ 0) : ∃ t, x * y = ofUnpacked (.infinity t) := by
  obtain ⟨t, n, f, hn, ht⟩ := unpack_of_real_ne_zero hy h
  refine ⟨s * t, ?_⟩
  change ofUnpacked (UnpackedFloat.mul _ x.toModel.unpack y.toModel.unpack) = _
  rw [hx, ht]
  rfl

theorem mul_infinity_of_ne_zero {x y : Float} {s : Sign} (hx : x.isFinite = true) (h : real x ≠ 0)
    (hy : y.toModel.unpack = .infinity s) : ∃ t, x * y = ofUnpacked (.infinity t) := by
  obtain ⟨t, m, e, hm, ht⟩ := unpack_of_real_ne_zero hx h
  refine ⟨t * s, ?_⟩
  change ofUnpacked (UnpackedFloat.mul _ x.toModel.unpack y.toModel.unpack) = _
  rw [hy, ht]
  rfl

theorem defined_mul {x y : Float} (hx : x ≤ x) (hy : y.isFinite = true) (h : real y ≠ 0) :
    x * y ≤ x * y := by
  by_cases hfx : x.isFinite = true
  · exact (mul_spec hfx hy).1
  · obtain ⟨s, hs⟩ := exists_infinity hx hfx
    obtain ⟨t, ht⟩ := infinity_mul hs hy h
    rw [ht]
    exact defined_infinity t

theorem defined_mul_right {x y : Float} (hx : x.isFinite = true) (h : real x ≠ 0) (hy : y ≤ y) :
    x * y ≤ x * y := by
  by_cases hfy : y.isFinite = true
  · exact (mul_spec hx hfy).1
  · obtain ⟨s, hs⟩ := exists_infinity hy hfy
    obtain ⟨t, ht⟩ := mul_infinity_of_ne_zero hx h hs
    rw [ht]
    exact defined_infinity t

theorem mul_infinity {x y : Float} {s : Sign} (hx : x.isFinite = true) (h : 0 < real x)
    (hy : y.toModel.unpack = .infinity s) : x * y = ofUnpacked (.infinity s) := by
  obtain ⟨t, m, e, hm, ht⟩ := unpack_of_real_ne_zero hx h.ne'
  change ofUnpacked (UnpackedFloat.mul _ x.toModel.unpack y.toModel.unpack) = _
  rw [hy, ht]
  cases t with
  | positive => cases s <;> rfl
  | negative =>
      rw [real, ht] at h
      have hsize : (0 : ℝ) ≤ m * 2 ^ e := by positivity
      exact absurd h (neg_nonpos.mpr hsize).not_gt

theorem defined_div {x y : Float} (hx : x ≤ x) (hy : y.isFinite = true) (h : real y ≠ 0) :
    x / y ≤ x / y := by
  by_cases hfx : x.isFinite = true
  · exact (div_spec hfx hy h).1
  · obtain ⟨s, hs⟩ := exists_infinity hx hfx
    obtain ⟨t, n, f, hn, ht⟩ := unpack_of_real_ne_zero hy h
    change ofUnpacked (UnpackedFloat.div _ x.toModel.unpack y.toModel.unpack) ≤
      ofUnpacked (UnpackedFloat.div _ x.toModel.unpack y.toModel.unpack)
    rw [hs, ht]
    exact defined_infinity (s / t)

theorem div_infinity {x y : Float} {s : Sign} (hx : x.isFinite = true) (hy : y.toModel.unpack = .infinity s) :
    ∃ t, x / y = ofUnpacked (.zero t) := by
  change ∃ t, ofUnpacked (UnpackedFloat.div _ x.toModel.unpack y.toModel.unpack) = _
  rw [hy]
  rcases unpack_of_isFinite hx with ⟨t, ht⟩ | ⟨t, m, e, hm, ht⟩ <;> exact ⟨t / s, by rw [ht]; rfl⟩

end WorkloadSynth.Binary64
