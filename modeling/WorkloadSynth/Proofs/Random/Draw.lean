import WorkloadSynth.Proofs.Binary64.Conversion
import WorkloadSynth.Proofs.Workload.Step
import WorkloadSynth.Random.Draw

/-!
# Draws are in range

Whole-number draws stay below their bound and choices come from their list; fractions lie in `[0, 1)`
and draws from an interval in the interval.  A normal deviate is never undefined: it is the product of
two finite values, or a distance from the start of the tail.  So the generator is a reliable source.

Nothing here depends on the words that a generator gives, so it holds of every generator.
-/

set_option autoImplicit false

namespace WorkloadSynth.Random

open Binary64 (Within)

namespace Generator

/-! ## Whole numbers -/

theorem scaleDown_lt {width bound candidate : ℕ} (h : candidate < 2 ^ width) (hb : 0 < bound) :
    (scaleDown width bound candidate).1 < bound := by
  change candidate * bound / 2 ^ width < bound
  rw [Nat.div_lt_iff_lt_mul (by positivity), mul_comm bound]
  exact Nat.mul_lt_mul_of_pos_right h hb

theorem belowFrom_lt {width bound : ℕ} {next : Generator → ℕ × Generator} (hb : 0 < bound)
    (hnext : ∀ g, (next g).1 < 2 ^ width) (tries : ℕ) (g : Generator) :
    (belowFrom width bound next tries g).1 < bound := by
  induction tries generalizing g with
  | zero => exact hb
  | succ tries ih =>
      simp only [belowFrom]
      split
      · exact scaleDown_lt (hnext g) hb
      · exact ih (next g).2

theorem below_lt {bound : ℕ} (hb : 0 < bound) (g : Generator) : (g.below bound).1 < bound := by
  unfold below
  apply belowFrom_lt hb
  intro g
  exact g.nextWord.1.toNat_lt

theorem exists_choose? {β : Type} {list : List β} (h : list ≠ []) (g : Generator) :
    ∃ x ∈ list, ∃ g', g.choose? list = some (x, g') := by
  have hposition := below_lt (List.length_pos_iff.mpr h) g
  unfold choose?
  generalize g.below list.length = drawn at hposition ⊢
  refine ⟨list[drawn.1], List.getElem_mem hposition, drawn.2, ?_⟩
  simp only [List.getElem?_eq_getElem hposition, Option.map_some]

/-! ## Fractions -/

theorem within_fraction (g : Generator) : Within 0.0 0.9999999999999999 g.fraction.1 := by
  have hword : ((g.nextWord.1 >>> 11).toNat) ≤ 9007199254740991 := by
    have hquotient : (g.nextWord.1 >>> 11).toNat = g.nextWord.1.toNat / 2 ^ 11 := by
      rw [UInt64.toNat_shiftRight, Nat.shiftRight_eq_div_pow]
      rfl
    have := g.nextWord.1.toNat_lt
    omega
  have hbits : Within 0.0 9007199254740991.0 (g.nextWord.1 >>> 11).toFloat := by
    have hlast : (9007199254740991 : UInt64).toNat = 9007199254740991 := by simp
    have hlow := Binary64.toFloat_mono (w := 0) (v := g.nextWord.1 >>> 11) (Nat.zero_le _)
    have hhigh := Binary64.toFloat_mono (hword.trans_eq hlast.symm)
    exact ⟨LawfulOrder.le_trans (by decide) hlow, LawfulOrder.le_trans hhigh (by decide),
      by decide, by decide⟩
  have hscale : Within 0.0 1.2e-16 (Binary64.powerOfTwo (-53)) := by decide
  have hfraction : g.fraction.1 = (g.nextWord.1 >>> 11).toFloat * Binary64.powerOfTwo (-53) := rfl
  rw [hfraction]
  exact hbits.mul (Within.self hscale.isFinite) (by decide)

theorem fraction_mem (g : Generator) : 0.0 ≤ g.fraction.1 ∧ g.fraction.1 < 1.0 := by
  have h := within_fraction g
  exact ⟨h.lower, Scalar.lt_of_le_of_lt h.upper (by decide)⟩

theorem within_oneToTwo (word : UInt64) : Within 1.0 1.9999999999999998 (oneToTwo word) := by
  have hfield : UInt64.ofNat (1023 * 2 ^ 52) = 0x3ff0000000000000 := by decide
  have h := Binary64.within_binade (w := word) (f := 1023) (by norm_num) (by norm_num)
  rw [hfield] at h
  exact h.widen (by decide)

/-! ## Intervals -/

theorem within_share (word : UInt64) : Within 0.0 1.0 (oneToTwo word - 1.0) :=
  (within_oneToTwo word).sub (Within.self (by decide)) (by decide)

theorem betweenFrom_mem {low high : Float} (hlow : low.isFinite = true) (hhigh : high.isFinite = true)
    (hspan : (high - low).isFinite = true) (h : low < high) (tries : ℕ) (g : Generator) :
    low ≤ (betweenFrom low high tries g).1 ∧ (betweenFrom low high tries g).1 < high := by
  have hwidth : Within 0.0 (high - low) (high - low) :=
    ⟨Within.zero_le_sub hhigh hlow (Scalar.le_of_lt h), Binary64.defined_of_isFinite hspan, by decide,
      hspan⟩
  induction tries generalizing g with
  | zero => exact ⟨Binary64.defined_of_isFinite hlow, h⟩
  | succ tries ih =>
      have hstep := (within_share g.nextWord.1).mul_share hwidth
      have hmoved := Within.le_add hstep.lower hstep.isFinite hlow
      simp only [betweenFrom]
      split
      · next hbelow => exact ⟨hmoved, hbelow⟩
      · exact ih _

theorem between_mem {low high : Float} (hlow : low.isFinite = true) (hhigh : high.isFinite = true)
    (hspan : (high - low).isFinite = true) (h : low < high) (g : Generator) :
    low ≤ (g.between low high).1 ∧ (g.between low high).1 < high := by
  unfold between
  exact betweenFrom_mem hlow hhigh hspan h _ g

/-! ## Normal deviates -/

private theorem edgeBits_finite :
    (Ziggurat.edgeBits.toList.all fun w => (Float.ofBits w).isFinite) = true := by
  decide +kernel

theorem edge_eq (layer : ℕ) :
    Ziggurat.edge layer = (Ziggurat.edgeBits[layer]?.map Float.ofBits).getD 0.0 := by
  unfold Ziggurat.edge Ziggurat.edges
  rw [Array.getD_eq_getD_getElem?, Array.getElem?_map]

theorem edge_isFinite (layer : ℕ) : (Ziggurat.edge layer).isFinite = true := by
  rw [edge_eq]
  cases h : Ziggurat.edgeBits[layer]? with
  | none => exact by decide
  | some w =>
      have hw : w ∈ Ziggurat.edgeBits.toList := Array.mem_toList_iff.mpr (Array.mem_of_getElem? h)
      exact List.all_eq_true.mp edgeBits_finite w hw

theorem defined_logarithm (x : Float) : logarithm x ≤ logarithm x := by
  have hzero : (0.0 : Float) ≤ 0.0 := by decide
  unfold logarithm
  dsimp only
  split
  · next h => exact LawfulOrder.defined_left h
  · exact hzero

theorem tailStart_eq : Ziggurat.tailStart = Float.ofBits 0x400d3bb48209ad33 := by
  have hbits : Ziggurat.edgeBits[1]? = some 0x400d3bb48209ad33 := by decide +kernel
  rw [Ziggurat.tailStart, edge_eq, hbits]
  rfl

theorem real_tailStart_ne_zero : Binary64.real Ziggurat.tailStart ≠ 0 := by
  have h : Within 3.0 4.0 (Float.ofBits 0x400d3bb48209ad33) := by decide
  rw [tailStart_eq]
  exact (Within.real_pos h.isFinite (Scalar.lt_of_lt_of_le (by decide) h.lower)).ne'

theorem defined_tailFrom (negative : Bool) (tries : ℕ) (g : Generator) :
    (tailFrom negative tries g).1 ≤ (tailFrom negative tries g).1 := by
  have hstart : Ziggurat.tailStart.isFinite = true := edge_isFinite 1
  induction tries generalizing g with
  | zero =>
      simp only [tailFrom]
      split
      · exact Binary64.defined_neg (Binary64.defined_of_isFinite hstart)
      · exact Binary64.defined_of_isFinite hstart
  | succ tries ih =>
      have hx := Binary64.defined_div (defined_logarithm g.openFraction.1) hstart real_tailStart_ne_zero
      simp only [tailFrom]
      split
      · exact ih _
      · split
        · exact Binary64.defined_sub hx hstart
        · exact Binary64.defined_sub_right hstart hx

theorem defined_layerPoint (word : UInt64) (layer : ℕ) :
    (Float.ofBits ((word >>> 12) ||| 0x4000000000000000) - 3.0) * Ziggurat.edge layer ≤
      (Float.ofBits ((word >>> 12) ||| 0x4000000000000000) - 3.0) * Ziggurat.edge layer := by
  have hfield : UInt64.ofNat (1024 * 2 ^ 52) = 0x4000000000000000 := by decide
  have hbinade := Binary64.within_binade (w := word) (f := 1024) (by norm_num) (by norm_num)
  rw [hfield] at hbinade
  have hside : Within (-1.0) 1.0 (Float.ofBits ((word >>> 12) ||| 0x4000000000000000) - 3.0) :=
    hbinade.sub (Within.self (by decide)) (by decide)
  exact (Binary64.mul_spec hside.isFinite (edge_isFinite layer)).1

theorem defined_normalFrom (tries : ℕ) (g : Generator) :
    (normalFrom tries g).1 ≤ (normalFrom tries g).1 := by
  induction tries generalizing g with
  | zero => exact (by decide : (0.0 : Float) ≤ 0.0)
  | succ tries ih =>
      unfold normalFrom
      generalize g.nextWord = drawn
      obtain ⟨word, g⟩ := drawn
      have hpoint := defined_layerPoint word (word &&& 0xff).toNat
      dsimp only
      split
      · exact hpoint
      · split
        · exact defined_tailFrom _ _ g
        · split
          · exact hpoint
          · exact ih _

theorem defined_normal (g : Generator) : g.normal.1 ≤ g.normal.1 := by
  unfold normal
  exact defined_normalFrom _ g

theorem source_uniform (low high : Float) (g : Generator) :
    (source.uniform low high g).1 = low + (high - low) * g.fraction.1 := rfl

/-- A proper call of a generator is never answered with an undefined value. -/
theorem source_reliable : Generator.source.Reliable where
  normal spread g h hf := by
    have hnormal := defined_normal g
    simp only [source]
    generalize g.normal = drawn at hnormal ⊢
    obtain ⟨z, g⟩ := drawn
    exact not_not_intro (Binary64.defined_mul_of_pos hnormal hf h)
  uniform low high g h₀ h hf := by
    have hshare := within_fraction g
    have hlow : low.isFinite = true := Binary64.isFinite_of_between (by decide) hf h₀ h
    have hwidth := Within.sub_nonneg h₀ h hf
    simp only [source]
    generalize g.fraction = drawn at hshare ⊢
    obtain ⟨share, g⟩ := drawn
    have hspan := (Binary64.mul_spec hwidth.isFinite hshare.isFinite).1
    exact not_not_intro (Binary64.defined_add_right hlow hspan)

end Generator

end WorkloadSynth.Random
