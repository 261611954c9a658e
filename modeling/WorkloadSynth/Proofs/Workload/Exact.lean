import Mathlib.Algebra.Order.Field.Basic
import Mathlib.Analysis.Real.Sqrt
import Mathlib.Analysis.SpecialFunctions.Trigonometric.Basic
import Mathlib.Data.Rat.Cast.Order
import Mathlib.Tactic.Linarith
import Mathlib.Tactic.NormNum
import WorkloadSynth.Proofs.Workload.Step
import WorkloadSynth.Proofs.Workload.Raise

/-!
# Episodes in exact arithmetic

An ordered field with any square root, sine and rounding to single precision is a scalar in which every
value is defined and nothing is rounded.  Traces and labels always succeed there, and what `Raise` says of
episodes holds there too.
-/

set_option autoImplicit false

namespace WorkloadSynth

class ElementaryFunctions (K : Type) where
  sqrt : K → K
  sine : K → K
  fraction : K → K
  narrow : K → K

section Exact

variable {K : Type} [Field K] [LinearOrder K] [IsStrictOrderedRing K] [ElementaryFunctions K]

instance (priority := low) exactScalar : Scalar K where
  decideLt := inferInstance
  decideLe := inferInstance
  ofNat n := n
  sqrt := ElementaryFunctions.sqrt
  sine := ElementaryFunctions.sine
  fraction := ElementaryFunctions.fraction
  narrow := ElementaryFunctions.narrow

instance (priority := low) : LawfulOrder K where
  defined_left _ := le_refl _
  defined_right _ := le_refl _
  le_trans h h' := le_trans h h'
  le_total _ _ := le_total _ _
  lt_iff := lt_iff_le_not_ge
  zero_le_one := by norm_num
  neg_one_le_one := by norm_num

instance (priority := low) : Amplifies K where
  le_mul_leak h _ := by
    norm_num at h ⊢
    linarith
  le_mul_spike h _ := by
    norm_num at h ⊢
    linarith

/-! ## Steps -/

theorem Quantiles.exists_stretched {p50 : K} (h50 : 0.01 ≤ p50 ∧ p50 ≤ 0.95) (f g : K) :
    ∃ q, stretched p50 f g = .ok q ∧ q.Ordered := by
  have hroom : p50 ≤ 0.98 := le_trans h50.2 (by norm_num)
  have hmiddle := Scalar.confine_mem (le_refl (p50 * f)) hroom
  generalize h95 : Scalar.confine (p50 * f) p50 0.98 = p95 at hmiddle
  have hone : p95 ≤ 1.0 := le_trans hmiddle.2 (by norm_num)
  have htail := Scalar.confine_mem (le_refl (p95 * g)) hone
  refine ⟨⟨p50, p95, Scalar.confine (p95 * g) p95 1.0⟩, ?_, le_trans (by norm_num) h50.1,
    le_trans h50.2 (by norm_num), hmiddle.1, htail⟩
  simp only [stretched, Scalar.clamp_of_le hroom, h95, Scalar.clamp_of_le hone, bind, Except.bind, pure,
    Except.pure]

theorem Profile.exists_nominalStep (p : Profile K) (m : Moment K) (previous : Option (Carry K))
    (n : StepNoise K) : ∃ u c, p.nominalStep m previous n = .ok (u, c) ∧ u.WellFormed := by
  have hmedian (base noise : K) : (0.01 : K) ≤ median base noise ∧ median base noise ≤ 0.95 :=
    Scalar.confine_mem (le_refl _) (by norm_num)
  unfold nominalStep
  generalize Carry.blend previous p.autocorrelation (p.baseAt m) = base
  obtain ⟨cpu, hcpu, hcpuOrdered⟩ := Quantiles.exists_stretched (hmedian base.cpu n.cpuMedian)
    (1.0 + p.burstiness * 0.5 + n.cpuMiddle) (1.0 + p.burstiness * 0.3 + n.cpuTail)
  obtain ⟨memory, hmemory, hmemoryOrdered⟩ := Quantiles.exists_stretched
    (hmedian base.memory n.memoryMedian) (1.0 + 0.1 + n.memoryMiddle) (1.0 + 0.05 + n.memoryTail)
  rw [← cpuQuantiles_eq] at hcpu
  rw [← memoryQuantiles_eq] at hmemory
  simp only [hcpu, hmemory, bind, Except.bind]
  rw [Usage.bounded_of_rising hcpuOrdered.rising hmemoryOrdered.rising]
  refine ⟨_, _, rfl, Usage.trimmed_wellFormed hcpuOrdered.rising hmemoryOrdered.rising ?_⟩
  exact ⟨le_refl _, le_refl _, le_refl _, le_refl _, le_refl _⟩

namespace TraceModel

variable {σ : Type}

theorem exists_stepsFrom (model : TraceModel K) (nominal injected : NoiseSource σ K) (start : Moment K)
    (count index : ℕ) (previous : Option (Carry K)) (s : σ) :
    ∃ steps s', model.stepsFrom nominal injected start none count index previous s = .ok (steps, s') ∧
      ∀ u ∈ steps, u.WellFormed := by
  induction count generalizing index previous s with
  | zero => exact ⟨[], s, rfl, nofun⟩
  | succ count ih =>
      obtain ⟨u, c, hstep, hu⟩ := model.archetype.profile.exists_nominalStep
        (start.later index model.stepHours) previous (StepNoise.draw nominal model.archetype.profile s).1
      obtain ⟨rest, s', hrest, hall⟩ := ih (index + 1) (if model.carries then some c else none)
        (StepNoise.draw nominal model.archetype.profile s).2
      refine ⟨u :: rest, s', ?_, List.forall_mem_cons.mpr ⟨hu, hall⟩⟩
      simp only [stepsFrom, step, hstep, hrest, bind, Except.bind, pure, Except.pure]

theorem exists_trace (model : TraceModel K) (nominal injected : NoiseSource σ K) (start : Moment K)
    (length : ℕ) (s : σ) : ∃ t s', model.trace nominal injected start length none s = .ok (t, s') ∧
      ∀ u ∈ t.steps, u.WellFormed := by
  obtain ⟨steps, s', hrun, hall⟩ := model.exists_stepsFrom nominal injected start length 0 none s
  refine ⟨⟨model.archetype, start, none, steps⟩, s', ?_, hall⟩
  simp only [trace, hrun, bind, Except.bind, pure, Except.pure]

end TraceModel

/-! ## Labels -/

namespace SizingPolicy

theorem standard_grants (median factor : K) : (standard : SizingPolicy K).Grants median factor := by
  have hbounds : (standard : SizingPolicy K).minResource ≤ standard.maxRequest := by
    change (0.01 : K) ≤ 0.95
    norm_num
  refine ⟨hbounds, le_trans (Scalar.confine_mem (le_refl _) hbounds).2 ?_⟩
  change (0.95 : K) ≤ 1.0
  norm_num

theorem standard_increasing_exact : (standard : SizingPolicy K).Increasing := by
  have hscaled {factor offset x y : K} (hf : 0 ≤ factor) (h : Lifts x y) :
      x * factor + offset ≤ y * factor + offset := by
    have := mul_le_mul_of_nonneg_right h.2.1 hf
    linarith
  constructor
  · intro x y
    apply hscaled
    change (0 : K) ≤ 1.0 + 0.15
    norm_num
  · intro x y
    apply hscaled
    change (0 : K) ≤ 1.0 + 0.20
    norm_num

theorem scaled_confidence_exact {c : K} (h : (0.85 : K) ≤ c ∧ c ≤ 0.95) (k : Anomaly) :
    Scalar.confineUnit (c * 1.0) = c ∧ Scalar.confineUnit (c * k.pointConfidence) = c * k.pointConfidence ∧
      c * k.pointConfidence ≤ c := by
  have hfactor : 0 ≤ (k.pointConfidence : K) ∧ (k.pointConfidence : K) ≤ 1 := by
    cases k <;> simp only [Anomaly.pointConfidence] <;> norm_num
  have hlow : 0 ≤ c := le_trans (by norm_num) h.1
  have hle : c * k.pointConfidence ≤ c := mul_le_of_le_one_right hlow hfactor.2
  have hone : c * 1.0 = c := by norm_num
  rw [hone]
  refine ⟨Scalar.confine_eq_self ?_ ?_, Scalar.confine_eq_self ?_ ?_, hle⟩
  · norm_num
    exact hlow
  · exact le_trans h.2 (by norm_num)
  · norm_num
    exact mul_nonneg hlow hfactor.1
  · exact le_trans hle (le_trans h.2 (by norm_num))

theorem exists_label_exact (t : Trace K) : ∃ l, (standard : SizingPolicy K).label t = .ok l := by
  refine exists_label.mpr ⟨standard_grants _ _, standard_grants _ _, ?_⟩
  change (0.3 : K) ≤ 0.95
  norm_num

theorem exists_labelPoint_exact {k : Anomaly} {u v : Usage K} (huv : u.Raised k v) {c : K}
    (hc : 0.85 ≤ c ∧ c ≤ 0.95) :
    ∃ l l', (standard : SizingPolicy K).labelPoint u c none = .ok l ∧
      (standard : SizingPolicy K).labelPoint v c (some k) = .ok l' ∧ l.Raised k l' ∧
      l'.confidence = l.confidence * k.pointConfidence ∧ l'.confidence ≤ l.confidence := by
  obtain ⟨l, hl⟩ : ∃ l, (standard : SizingPolicy K).labelPoint u c none = .ok l :=
    exists_labelPoint.mpr ⟨standard_grants _ _, standard_grants _ _⟩
  obtain ⟨l', hl'⟩ : ∃ l', (standard : SizingPolicy K).labelPoint v c (some k) = .ok l' :=
    exists_labelPoint.mpr ⟨standard_grants _ _, standard_grants _ _⟩
  obtain ⟨hkept, hscaled, hle⟩ := scaled_confidence_exact hc k
  have hbase : l.confidence = c := (labelPoint_eq_ok.mp hl).2.2.symm.trans hkept
  have hleft : l'.confidence = c * k.pointConfidence := (labelPoint_eq_ok.mp hl').2.2.symm.trans hscaled
  rw [← hbase] at hleft hle
  exact ⟨l, l', hl, hl', labelPoint_raised standard_increasing_exact huv hl hl', hleft, hleft.symm ▸ hle⟩

end SizingPolicy

end Exact

/-- What the real numbers have of these functions, with nothing lost to single precision. -/
noncomputable abbrev realFunctions : ElementaryFunctions ℝ where
  sqrt := Real.sqrt
  sine := Real.sin
  fraction x := SignType.sign x * Int.fract |x|
  narrow := id

end WorkloadSynth
