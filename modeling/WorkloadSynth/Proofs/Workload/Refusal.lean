import WorkloadSynth.Proofs.Workload.Label

/-!
# What a policy refuses to label

Labelling clamps twice for each resource: the request between the bounds of the policy, and the limit
between that request and one.  The second interval is computed, so whether it is empty depends on the
trace.  Among policies with finite coefficients nothing else can go wrong: the means, the maxima and the
stability of any number of well-formed steps are finite, and so are the products they enter.
-/

set_option autoImplicit false

namespace WorkloadSynth.SizingPolicy

variable {policy : SizingPolicy Float} {median factor : Float}

theorem not_grants_iff (hp : policy.Finite) (hmedian : median.isFinite = true)
    (hf : factor.isFinite = true) : ¬ policy.Grants median factor ↔
      policy.maxRequest < policy.minResource ∨ 1.0 < policy.requested median factor := by
  have hmin := Binary64.defined_of_isFinite hp.minResource
  have hmax := Binary64.defined_of_isFinite hp.maxRequest
  have hone : (1.0 : Float) ≤ 1.0 := by decide
  by_cases hbounds : policy.minResource ≤ policy.maxRequest
  · have hneed := Binary64.defined_add (Binary64.mul_spec hmedian hf).1 hp.requestOffset
    have hrequest : policy.requested median factor ≤ policy.requested median factor :=
      LawfulOrder.defined_left (Scalar.confine_mem hneed hbounds).2
    have hnot : ¬ policy.maxRequest < policy.minResource := Scalar.not_lt_of_le hbounds
    rw [← Scalar.not_le_iff hrequest hone]
    simp [Grants, hbounds, hnot]
  · have hlt := (Scalar.not_le_iff hmin hmax).mp hbounds
    simp [Grants, hbounds, hlt]

theorem not_grants_both_iff (hp : policy.Finite) {cpu memory : Float} (hcpu : cpu.isFinite = true)
    (hmemory : memory.isFinite = true) :
    ¬ (policy.Grants cpu policy.cpuRequestFactor ∧ policy.Grants memory policy.memoryRequestFactor) ↔
      policy.maxRequest < policy.minResource ∨ 1.0 < policy.requested cpu policy.cpuRequestFactor ∨
        1.0 < policy.requested memory policy.memoryRequestFactor := by
  rw [not_and_or, not_grants_iff hp hcpu hp.cpuRequestFactor,
    not_grants_iff hp hmemory hp.memoryRequestFactor, ← or_or_distrib_left]

/-- A policy with finite coefficients refuses a trace of well-formed steps, of any length, if its bounds
are out of order or a clamped request exceeds one, and in no other case; what it does not refuse it labels
in range.  So it is for a single step, whatever the base confidence, and as long as that is defined the
confidence of the step is in the unit interval.  The standard policy refuses nothing. -/
theorem refuses_iff (hp : policy.Finite) :
    (∀ t : Trace Float, (∀ u ∈ t.steps, u.WellFormed) →
      (policy.label t = .error .outOfRange ↔
        policy.maxRequest < policy.minResource ∨ policy.maxConfidence < policy.minConfidence ∨
          1.0 < policy.requested (Stats.mean (t.series (·.cpu.p50))) policy.cpuRequestFactor ∨
          1.0 < policy.requested (Stats.mean (t.series (·.memory.p50))) policy.memoryRequestFactor) ∧
      ∀ l, policy.label t = .ok l → policy.Allows l.cpu ∧ policy.Allows l.memory ∧
        policy.minConfidence ≤ l.confidence ∧ l.confidence ≤ policy.maxConfidence) ∧
    (∀ (u : Usage Float) (baseConfidence : Float) (anomaly : Option Anomaly), u.WellFormed →
      (policy.labelPoint u baseConfidence anomaly = .error .outOfRange ↔
        policy.maxRequest < policy.minResource ∨
          1.0 < policy.requested u.cpu.p50 policy.cpuRequestFactor ∨
          1.0 < policy.requested u.memory.p50 policy.memoryRequestFactor) ∧
      ∀ l, policy.labelPoint u baseConfidence anomaly = .ok l →
        policy.Allows l.cpu ∧ policy.Allows l.memory ∧
        (¬ Scalar.IsUndefined baseConfidence → 0.0 ≤ l.confidence ∧ l.confidence ≤ 1.0)) ∧
    (∀ t : Trace Float, (∀ u ∈ t.steps, u.WellFormed) → ∃ l, standard.label t = .ok l) ∧
    ∀ (u : Usage Float) (baseConfidence : Float) (anomaly : Option Anomaly), u.WellFormed →
      ∃ l, standard.labelPoint u baseConfidence anomaly = .ok l := by
  refine ⟨?_, ?_, ?_, ?_⟩
  · intro t ht
    refine ⟨?_, fun l hl => label_mem hp ht hl⟩
    have hrequests := not_grants_both_iff hp (isFinite_mean_series ht fun _ hu => hu.1.within_p50)
      (isFinite_mean_series ht fun _ hu => hu.2.1.within_p50)
    have hconfidence := Scalar.not_le_iff (Binary64.defined_of_isFinite hp.minConfidence)
      (Binary64.defined_of_isFinite hp.maxConfidence)
    rw [eq_outOfRange_iff, exists_label, ← and_assoc, not_and_or, hrequests, hconfidence, or_assoc,
      or_comm (b := policy.maxConfidence < policy.minConfidence)]
  · intro u baseConfidence anomaly hu
    refine ⟨?_, fun l hl => ?_⟩
    · rw [eq_outOfRange_iff, exists_labelPoint]
      exact not_grants_both_iff hp hu.1.within_p50.isFinite hu.2.1.within_p50.isFinite
    · obtain ⟨hcpu, hmemory, hconfidence⟩ := labelPoint_mem hp hu hl
      exact ⟨hcpu, hmemory, fun hdefined => hconfidence (not_not.mp hdefined)⟩
  · intro t ht
    obtain ⟨l, hl, -⟩ := label_spec standard_finite standard_orderly ht
    exact ⟨l, hl⟩
  · intro u baseConfidence anomaly hu
    exact exists_labelPoint.mpr
      ⟨standard_orderly.grants standard_finite hu.1.within_p50.isFinite standard_finite.cpuRequestFactor,
        standard_orderly.grants standard_finite hu.2.1.within_p50.isFinite
          standard_finite.memoryRequestFactor⟩

theorem refuses_busy_trace :
    let policy : SizingPolicy Float := { standard with maxRequest := 1.5 }
    let busy : Usage Float := ⟨⟨1.0, 1.0, 1.0⟩, ⟨0.5, 0.5, 0.5⟩, 0.0, 0.0, 0.0, 0.0, 0.0, 0.0⟩
    policy.Finite ∧ busy.WellFormed ∧
      policy.label ⟨.web, ⟨0.0, 0.0, 1.0⟩, none, [busy, busy]⟩ = .error .outOfRange ∧
      policy.labelPoint busy 0.9 (some .noisy) = .error .outOfRange ∧
      ∃ l, policy.label ⟨.web, ⟨0.0, 0.0, 1.0⟩, none, []⟩ = .ok l ∧ policy.Allows l.cpu := by
  intro policy busy
  have hp : policy.Finite := by constructor <;> decide
  have hbusy : busy.WellFormed := by decide
  obtain ⟨htrace, hpoint, -⟩ := refuses_iff hp
  have hsteps : ∀ u ∈ [busy, busy], u.WellFormed := by simp [hbusy]
  refine ⟨hp, hbusy, ?_, ?_, ?_⟩
  · refine (htrace ⟨.web, ⟨0.0, 0.0, 1.0⟩, none, [busy, busy]⟩ hsteps).1.mpr ?_
    exact .inr (.inr (.inl (by decide)))
  · refine (hpoint busy 0.9 (some .noisy) hbusy).1.mpr ?_
    exact .inr (.inl (by decide))
  · obtain ⟨hrefused, hrange⟩ := htrace ⟨.web, ⟨0.0, 0.0, 1.0⟩, none, []⟩ nofun
    have hlabelled := mt hrefused.mp (by decide)
    obtain ⟨l, hl⟩ := not_not.mp (mt eq_outOfRange_iff.mpr hlabelled)
    exact ⟨l, hl, (hrange l hl).1⟩

end WorkloadSynth.SizingPolicy
