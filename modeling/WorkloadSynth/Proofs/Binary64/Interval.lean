import WorkloadSynth.Proofs.Binary64.Arithmetic
import WorkloadSynth.Proofs.Number.Order

/-!
# Doubles between two finite ones

The order of doubles has the laws of `LawfulOrder`.  `Within lo hi x` keeps a double between two finite
bounds, so it is finite itself; the arithmetic of such doubles stays between bounds that come from the
ends of the intervals alone.  Where the ends are literals, what is left to check is a closed comparison.
-/

set_option autoImplicit false

namespace WorkloadSynth

instance : LawfulOrder Float where
  defined_left h := (Binary64.le_iff.mp h).1
  defined_right h := (Binary64.le_iff.mp h).2.1
  le_trans h₁ h₂ := by
    rw [Binary64.le_iff] at *
    exact ⟨h₁.1, h₂.2.1, h₁.2.2.trans h₂.2.2⟩
  le_total ha hb := by
    rcases le_total (Binary64.value _) (Binary64.value _) with h | h
    · exact Or.inl (Binary64.le_iff.mpr ⟨ha, hb, h⟩)
    · exact Or.inr (Binary64.le_iff.mpr ⟨hb, ha, h⟩)
  lt_iff := by
    intro a b
    constructor
    · intro h
      obtain ⟨ha, hb, h⟩ := Binary64.lt_iff.mp h
      exact ⟨Binary64.le_iff.mpr ⟨ha, hb, h.le⟩, fun h' => h.not_ge (Binary64.le_iff.mp h').2.2⟩
    · rintro ⟨h, h'⟩
      obtain ⟨ha, hb, -⟩ := Binary64.le_iff.mp h
      exact Binary64.lt_iff.mpr
        ⟨ha, hb, lt_of_not_ge fun h'' => h' (Binary64.le_iff.mpr ⟨hb, ha, h''⟩)⟩
  zero_le_one := by decide
  neg_one_le_one := by decide

namespace Binary64

structure Within (lo hi x : Float) : Prop where
  lower : lo ≤ x
  upper : x ≤ hi
  finite_lower : lo.isFinite = true
  finite_upper : hi.isFinite = true

instance (lo hi x : Float) : Decidable (Within lo hi x) :=
  decidable_of_iff (lo ≤ x ∧ x ≤ hi ∧ lo.isFinite = true ∧ hi.isFinite = true)
    ⟨fun h => ⟨h.1, h.2.1, h.2.2.1, h.2.2.2⟩,
      fun h => ⟨h.lower, h.upper, h.finite_lower, h.finite_upper⟩⟩

namespace Within

variable {lo hi a b c d x y : Float}

theorem isFinite (h : Within lo hi x) : x.isFinite = true :=
  isFinite_of_between h.finite_lower h.finite_upper h.lower h.upper

theorem defined (h : Within lo hi x) : x ≤ x := defined_of_isFinite h.isFinite

theorem self (h : x.isFinite = true) : Within x x x :=
  ⟨defined_of_isFinite h, defined_of_isFinite h, h, h⟩

theorem widen (h : Within a b x)
    (hb : lo.isFinite = true ∧ hi.isFinite = true ∧ lo ≤ a ∧ b ≤ hi) : Within lo hi x :=
  ⟨LawfulOrder.le_trans hb.2.2.1 h.lower, LawfulOrder.le_trans h.upper hb.2.2.2, hb.1, hb.2.1⟩

theorem add (hx : Within a b x) (hy : Within c d y)
    (h : lo.isFinite = true ∧ hi.isFinite = true ∧ lo ≤ a + c ∧ b + d ≤ hi) :
    Within lo hi (x + y) where
  lower := LawfulOrder.le_trans h.2.2.1
    (add_mono hx.finite_lower hx.isFinite hy.finite_lower hy.isFinite hx.lower hy.lower)
  upper := LawfulOrder.le_trans
    (add_mono hx.isFinite hx.finite_upper hy.isFinite hy.finite_upper hx.upper hy.upper) h.2.2.2
  finite_lower := h.1
  finite_upper := h.2.1

theorem sub (hx : Within a b x) (hy : Within c d y)
    (h : lo.isFinite = true ∧ hi.isFinite = true ∧ lo ≤ a - d ∧ b - c ≤ hi) :
    Within lo hi (x - y) where
  lower := LawfulOrder.le_trans h.2.2.1
    (sub_mono hx.finite_lower hx.isFinite hy.finite_upper hy.isFinite hx.lower hy.upper)
  upper := LawfulOrder.le_trans
    (sub_mono hx.isFinite hx.finite_upper hy.isFinite hy.finite_lower hx.upper hy.lower) h.2.2.2
  finite_lower := h.1
  finite_upper := h.2.1

theorem real_zero : real 0.0 = 0 := by
  have h : (0.0 : Float).toModel.unpack = .zero .positive := rfl
  rw [real, h]
  rfl

theorem real_nonneg (hx : x.isFinite = true) (h : 0.0 ≤ x) : 0 ≤ real x := by
  rw [← real_zero]
  exact (real_le_real rfl hx).mpr h

theorem real_pos (hx : x.isFinite = true) (h : 0.0 < x) : 0 < real x := by
  rw [← real_zero]
  exact (real_lt_real rfl hx).mpr h

theorem zero_le_of_value {r : ℝ} (hx : x ≤ x) (h : value x = nearestValue r) (hr : 0 ≤ r) : 0.0 ≤ x := by
  have hzero : value 0.0 = nearestValue 0 := by
    rw [← real_zero, nearestValue_real rfl]
  rw [le_iff, h, hzero]
  exact ⟨by decide, hx, nearestValue_mono hr⟩

theorem le_add (hp : 0.0 ≤ y) (hy : y.isFinite = true) (hx : x.isFinite = true) : x ≤ y + x := by
  have hy₀ := real_nonneg hy hp
  obtain ⟨hdefined, hvalue⟩ := add_spec hy hx
  rw [le_iff, hvalue, ← nearestValue_real hx]
  exact ⟨defined_of_isFinite hx, hdefined, nearestValue_mono (by linarith)⟩

theorem zero_le_sub (hx : x.isFinite = true) (hy : y.isFinite = true) (h : y ≤ x) : 0.0 ≤ x - y := by
  have hle := (real_le_real hy hx).mpr h
  obtain ⟨hdefined, hvalue⟩ := sub_spec hx hy
  exact zero_le_of_value hdefined hvalue (by linarith)

theorem mul (hx : Within a b x) (hy : Within c d y) (h : (0.0 ≤ a ∧ 0.0 ≤ c) ∧
    lo.isFinite = true ∧ hi.isFinite = true ∧ lo ≤ a * c ∧ b * d ≤ hi) : Within lo hi (x * y) := by
  obtain ⟨⟨ha, hc⟩, hlo, hhi, hlow, hhigh⟩ := h
  have hx₀ := real_nonneg hx.isFinite (LawfulOrder.le_trans ha hx.lower)
  have hb₀ := hx₀.trans ((real_le_real hx.isFinite hx.finite_upper).mpr hx.upper)
  have hc₀ := real_nonneg hy.finite_lower hc
  have hy₀ := real_nonneg hy.isFinite (LawfulOrder.le_trans hc hy.lower)
  exact ⟨LawfulOrder.le_trans hlow
      (mul_mono hx.finite_lower hx.isFinite hy.finite_lower hy.isFinite hx.lower hy.lower hx₀ hc₀),
    LawfulOrder.le_trans
      (mul_mono hx.isFinite hx.finite_upper hy.isFinite hy.finite_upper hx.upper hy.upper hb₀ hy₀)
      hhigh, hlo, hhi⟩

theorem mul_size (hx : Within (-a) a x) (hy : Within (-b) b y) (h : c.isFinite = true ∧ a * b ≤ c) :
    Within (-c) c (x * y) := by
  obtain ⟨hc, hbound⟩ := h
  have size {z w : Float} (hz : Within (-w) w z) : |real z| ≤ real w := by
    rw [abs_le, ← real_neg]
    exact ⟨(real_le_real hz.finite_lower hz.isFinite).mpr hz.lower,
      (real_le_real hz.isFinite hz.finite_upper).mpr hz.upper⟩
  have hsize : |real x * real y| ≤ real a * real b := by
    rw [abs_mul]
    exact mul_le_mul (size hx) (size hy) (abs_nonneg _) ((abs_nonneg _).trans (size hx))
  obtain ⟨hdefined, hvalue⟩ := mul_spec hx.isFinite hy.isFinite
  obtain ⟨hlow, hhigh⟩ := abs_le.mp hsize
  have hnc : (-c).isFinite = true := (isFinite_neg c).trans hc
  have hupper : nearestValue (real a * real b) ≤ value c := by
    rw [← (mul_spec hx.finite_upper hy.finite_upper).2]
    exact (le_iff.mp hbound).2.2
  refine ⟨le_iff.mpr ⟨defined_of_isFinite hnc, hdefined, ?_⟩,
    le_iff.mpr ⟨hdefined, defined_of_isFinite hc, ?_⟩, hnc, hc⟩
  · rw [hvalue, value_neg]
    calc -value c ≤ -nearestValue (real a * real b) := EReal.neg_le_neg_iff.mpr hupper
      _ = nearestValue (-(real a * real b)) := (nearestValue_neg _).symm
      _ ≤ nearestValue (real x * real y) := nearestValue_mono hlow
  · rw [hvalue]
    exact (nearestValue_mono hhigh).trans hupper

theorem square (hx : Within (-a) a x) (h : c.isFinite = true ∧ a * a ≤ c) : Within 0.0 c (x * x) := by
  obtain ⟨hdefined, hvalue⟩ := mul_spec hx.isFinite hx.isFinite
  exact ⟨zero_le_of_value hdefined hvalue (mul_self_nonneg _), (hx.mul_size hx h).upper, by decide, h.1⟩

theorem quotient (hx : Within 0.0 b x) (hy : Within c d y)
    (h : 0.0 < c ∧ hi.isFinite = true ∧ b / c ≤ hi) : Within 0.0 hi (x / y) := by
  obtain ⟨hc, hhi, hbound⟩ := h
  have hc₀ := real_pos hy.finite_lower hc
  have hcy := (real_le_real hy.finite_lower hy.isFinite).mpr hy.lower
  have hx₀ := real_nonneg hx.isFinite hx.lower
  have hxb := (real_le_real hx.isFinite hx.finite_upper).mpr hx.upper
  have hy₀ : 0 < real y := hc₀.trans_le hcy
  obtain ⟨hdefined, hvalue⟩ := div_spec hx.isFinite hy.isFinite hy₀.ne'
  obtain ⟨hcorner, hcornerValue⟩ := div_spec hx.finite_upper hy.finite_lower hc₀.ne'
  refine ⟨zero_le_of_value hdefined hvalue (div_nonneg hx₀ hy₀.le), ?_, by decide, hhi⟩
  apply LawfulOrder.le_trans _ hbound
  rw [le_iff, hvalue, hcornerValue]
  exact ⟨hdefined, hcorner, nearestValue_mono (div_le_div₀ (hx₀.trans hxb) hxb hc₀ hcy)⟩

theorem div (hx : Within a b x) (h : (0.0 < c ∧ c.isFinite = true) ∧
    lo.isFinite = true ∧ hi.isFinite = true ∧ lo ≤ a / c ∧ b / c ≤ hi) : Within lo hi (x / c) := by
  obtain ⟨⟨hc₀, hc⟩, hlo, hhi, hlow, hhigh⟩ := h
  have hcr := real_pos hc hc₀
  exact ⟨LawfulOrder.le_trans hlow (div_mono hx.finite_lower hx.isFinite hc hx.lower hcr),
    LawfulOrder.le_trans (div_mono hx.isFinite hx.finite_upper hc hx.upper hcr) hhigh, hlo, hhi⟩

theorem sqrt (hx : Within a b x)
    (h : 0.0 ≤ a ∧ lo.isFinite = true ∧ hi.isFinite = true ∧ lo ≤ a.sqrt ∧ b.sqrt ≤ hi) :
    Within lo hi x.sqrt := by
  obtain ⟨ha, hlo, hhi, hlow, hhigh⟩ := h
  have ha₀ := real_nonneg hx.finite_lower ha
  have hx₀ := real_nonneg hx.isFinite (LawfulOrder.le_trans ha hx.lower)
  exact ⟨LawfulOrder.le_trans hlow (sqrt_mono hx.finite_lower hx.isFinite hx.lower ha₀),
    LawfulOrder.le_trans (sqrt_mono hx.isFinite hx.finite_upper hx.upper hx₀) hhigh, hlo, hhi⟩

theorem confine (hx : x ≤ x)
    (h : lo.isFinite = true ∧ hi.isFinite = true ∧ lo ≤ hi) : Within lo hi (Scalar.confine x lo hi) :=
  have hmem := Scalar.confine_mem hx h.2.2
  ⟨hmem.1, hmem.2, h.1, h.2.1⟩

theorem mul_le_mul_left {z : Float} (hz : Within 0.0 c z) (hx : Within 0.0 a x) (hy : y.isFinite = true)
    (h : x ≤ y) : z * x ≤ z * y :=
  mul_mono hz.isFinite hz.isFinite hx.isFinite hy hz.defined h (real_nonneg hz.isFinite hz.lower)
    (real_nonneg hx.isFinite hx.lower)

end Within

/-! ## Operands that may be infinite -/

theorem zero_le_add {x y : Float} (hx : x.isFinite = true) (hx₀ : 0.0 ≤ x) (hy : 0.0 ≤ y) : 0.0 ≤ x + y := by
  by_cases hfy : y.isFinite = true
  · exact LawfulOrder.le_trans hy (Within.le_add hx₀ hx hfy)
  · obtain ⟨s, hs⟩ := exists_infinity (LawfulOrder.defined_right hy) hfy
    rw [add_infinity hx hs]
    cases s with
    | positive => decide
    | negative =>
        have hvalue := (le_iff.mp hy).2.2
        rw [value_of_isFinite rfl, Within.real_zero, value, hs] at hvalue
        simp [reading] at hvalue

theorem defined_mul_of_pos {x f : Float} (hx : x ≤ x) (hf : f.isFinite = true) (h : 0.0 < f) :
    x * f ≤ x * f :=
  defined_mul hx hf (Within.real_pos hf h).ne'

theorem mul_mono_left {a b x : Float} (ha : a.isFinite = true) (hb : b.isFinite = true) (ha₀ : 0 < real a)
    (h : a ≤ b) (hx : 0.0 ≤ x) : a * x ≤ b * x := by
  have hdefined := LawfulOrder.defined_right hx
  have hb₀ : 0 < real b := ha₀.trans_le ((real_le_real ha hb).mpr h)
  by_cases hfx : x.isFinite = true
  · exact mul_mono ha hb hfx hfx h hdefined hb₀.le (Within.real_nonneg hfx hx)
  · obtain ⟨s, hs⟩ := exists_infinity hdefined hfx
    rw [mul_infinity ha ha₀ hs, mul_infinity hb hb₀ hs]
    exact defined_infinity s

theorem div_mono_left {a b x : Float} (ha : a.isFinite = true) (hb : b.isFinite = true) (h : a ≤ b)
    (hx : 0.0 < x) : a / x ≤ b / x := by
  by_cases hfx : x.isFinite = true
  · exact div_mono ha hb hfx h (Within.real_pos hfx hx)
  · obtain ⟨s, hs⟩ := exists_infinity (LawfulOrder.defined_right (Scalar.le_of_lt hx)) hfx
    obtain ⟨t, ht⟩ := div_infinity ha hs
    obtain ⟨t', ht'⟩ := div_infinity hb hs
    rw [ht, ht']
    cases t <;> cases t' <;> decide

def largest : Float := Float.ofBits 0x7fefffffffffffff

private theorem real_largest : real largest = (2 ^ 53 - 1) * 2 ^ (971 : ℤ) := by
  have h : largest.toModel.unpack = .finite .positive (2 ^ 53 - 1) 971 (by norm_num) := rfl
  rw [real, h, exactValue, signed]
  norm_num

theorem within_largest {x : Float} (hx : x.isFinite = true) (h₀ : 0.0 ≤ x) : Within 0.0 largest x := by
  refine ⟨h₀, (real_le_real hx rfl).mp ?_, rfl, rfl⟩
  rw [real_largest, real]
  have hc := canonical_unpacked x
  have hr : InRange x.toModel.unpack := inRange_unpack _
  have hnn : (0 : ℝ) ≤ (2 ^ 53 - 1) * 2 ^ (971 : ℤ) := mul_nonneg (by norm_num) (by positivity)
  cases hu : x.toModel.unpack with
  | finite s m e hm =>
      rw [hu] at hc hr
      have hm' : (m : ℝ) ≤ 2 ^ 53 - 1 := by
        have : m ≤ 2 ^ 53 - 1 := by have := hc.1; omega
        have hcast : (m : ℝ) ≤ ((2 ^ 53 - 1 : ℕ) : ℝ) := by exact_mod_cast this
        norm_num at hcast ⊢
        exact hcast
      have hsize : (m * 2 ^ e : ℝ) ≤ (2 ^ 53 - 1) * 2 ^ (971 : ℤ) :=
        mul_le_mul hm' (zpow_le_zpow_right₀ (by norm_num) hr) (by positivity) (by norm_num)
      cases s with
      | negative => exact (neg_nonpos.mpr (by positivity)).trans hnn
      | positive => exact hsize
  | _ => exact hnn

end Binary64

end WorkloadSynth
