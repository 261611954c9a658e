import WorkloadSynth.Proofs.Workload.Exact
import WorkloadSynth.Proofs.Binary64.Decoding
import WorkloadSynth.Proofs.Stats.Moments
import WorkloadSynth.Proofs.Workload.Label

/-!
# Traces of equal steps

A trace is labelled from means and maxima, a single step from its readings.  In exact arithmetic the mean and
the maximum of a value repeated are the value, so copies of a step are allocated what the step is, and since
nothing varies their tails are fully stable.  In floating point a sum of many copies is rounded, but that of one
copy is not, whatever the sign of a zero.
-/

set_option autoImplicit false

namespace WorkloadSynth

/-! ## A series of one double -/

theorem Binary64.eq_zero_of_real {x : Float} (hx : x.isFinite = true) (h : real x = 0) : x = 0.0 ∨ x = -0.0 := by
  obtain ⟨negative, m, e, hdecode, -, -, -, -, hvalue⟩ := decode_finite hx
  have hpower : (2 : ℝ) ^ e ≠ 0 := zpow_ne_zero e two_ne_zero
  have hm : m = 0 := by
    rw [h] at hvalue
    cases negative <;> simpa [hpower, eq_comm] using hvalue
  subst hm
  rw [eq_zero_of_decode hdecode]
  cases negative
  · exact .inl rfl
  · exact .inr rfl

/-- The sum begins at minus zero, so even its sign is that of the value. -/
theorem Stats.mean_singleton {x : Float} (hx : x.isFinite = true) : mean [x] = x := by
  by_cases hzero : Binary64.real x = 0
  · rcases Binary64.eq_zero_of_real hx hzero with rfl | rfl <;> decide
  · have hone : Binary64.ofNat 1 = 1.0 := rfl
    change (-0.0 + x) / Binary64.ofNat 1 = x
    rw [Binary64.neg_zero_add_eq hx hzero, hone, Binary64.div_one_eq hx hzero]

/-! ## A series of equal values -/

namespace Stats

variable {K : Type} [Field K] [LinearOrder K] [IsStrictOrderedRing K] [ElementaryFunctions K] {n : ℕ}

theorem mean_replicate (hn : 0 < n) (x : K) : mean (List.replicate n x) = x := by
  have hlength : (n : K) ≠ 0 := Nat.cast_ne_zero.mpr hn.ne'
  rw [mean_eq, List.sum_replicate, List.length_replicate, nsmul_eq_mul, mul_div_cancel_left₀ x hlength]

omit [IsStrictOrderedRing K] in
theorem maximum_replicate (hn : 0 < n) (x : K) : maximum (List.replicate n x) = x := by
  have hsome : List.replicate n x ≠ [] := by simp [hn.ne']
  exact List.eq_of_mem_replicate (maximum_mem hsome)

theorem deviation_replicate (hroot : Scalar.sqrt (0 : K) = 0) (hn : 0 < n) (x : K) :
    deviation (List.replicate n x) = 0 := by
  have hsquares : (List.replicate n x).map (fun v => (v - x) * (v - x)) = List.replicate n 0 := by
    rw [List.map_replicate, sub_self, mul_zero]
  unfold deviation
  split_ifs
  · norm_num
  · dsimp only
    rw [mean_replicate hn, hsquares, sum_eq, List.sum_replicate, smul_zero, zero_div, hroot]

def FullyStable (values : List K) : Prop := 0 < mean values + 0.01 ∧ stability values = 1

theorem fullyStable_replicate (hroot : Scalar.sqrt (0 : K) = 0) (hn : 0 < n) {x : K} (hx : 0 ≤ x) :
    FullyStable (List.replicate n x) := by
  constructor
  · rw [mean_replicate hn]
    exact add_pos_of_nonneg_of_pos hx (by norm_num)
  · rw [stability, deviation_replicate hroot hn, zero_div, sub_zero]
    norm_num

end Stats

/-! ## Labels that agree -/

theorem Trace.series_of_copies {α : Type} {t : Trace α} {u : Usage α} {n : ℕ}
    (hsteps : t.steps = List.replicate n u) (reading : Usage α → α) :
    t.series reading = List.replicate n (reading u) := by
  rw [series, hsteps, List.map_replicate]

namespace SizingPolicy

section

variable {α : Type} [Scalar α]

/-- A trace and a step are allocated the same, or refused alike. -/
structure AllocatesAlike (policy : SizingPolicy α) (t : Trace α) (u : Usage α) : Prop where
  cpu : policy.allocateCpu (Stats.mean (t.series (·.cpu.p50))) (Stats.maximum (t.series (·.cpu.p99))) =
    policy.allocateCpu u.cpu.p50 u.cpu.p99
  memory : policy.allocateMemory (Stats.mean (t.series (·.memory.p50)))
    (Stats.maximum (t.series (·.memory.p99))) = policy.allocateMemory u.memory.p50 u.memory.p99

/-- Whatever confidence the step is given, its label and that of the trace have the same allocations, and the trace
is labelled wherever the step is, as far as the bounds of its confidence are in order. -/
structure LabelsAlike (policy : SizingPolicy α) (t : Trace α) (u : Usage α) : Prop
    extends policy.AllocatesAlike t u where
  agree : ∀ c k l l', policy.label t = .ok l → policy.labelPoint u c k = .ok l' →
    l.cpu = l'.cpu ∧ l.memory = l'.memory
  exist : ∀ c k, (∃ l, policy.label t = .ok l) ↔
    (∃ l', policy.labelPoint u c k = .ok l') ∧ policy.minConfidence ≤ policy.maxConfidence

variable {policy : SizingPolicy α} {t : Trace α} {u : Usage α}

theorem allocatesAlike_of_readings
    (hcpu : Stats.mean (t.series (·.cpu.p50)) = u.cpu.p50 ∧ Stats.maximum (t.series (·.cpu.p99)) = u.cpu.p99)
    (hmemory : Stats.mean (t.series (·.memory.p50)) = u.memory.p50 ∧
      Stats.maximum (t.series (·.memory.p99)) = u.memory.p99) : policy.AllocatesAlike t u := by
  constructor
  · rw [hcpu.1, hcpu.2]
  · rw [hmemory.1, hmemory.2]

theorem AllocatesAlike.labelsAlike (h : policy.AllocatesAlike t u) : policy.LabelsAlike t u := by
  refine ⟨h, ?_, ?_⟩
  · intro c k l l' hl hl'
    obtain ⟨hcpu, hmemory, -⟩ := label_eq_ok.mp hl
    obtain ⟨hcpu', hmemory', -⟩ := labelPoint_eq_ok.mp hl'
    rw [h.cpu, hcpu'] at hcpu
    rw [h.memory, hmemory'] at hmemory
    exact ⟨(Except.ok.inj hcpu).symm, (Except.ok.inj hmemory).symm⟩
  · intro c k
    simp only [label_eq_ok, labelPoint_eq_ok, h.cpu, h.memory]
    constructor
    · rintro ⟨l, hcpu, hmemory, hconfidence⟩
      let drawn := Scalar.confineUnit (c * k.elim 1.0 Anomaly.pointConfidence)
      exact ⟨⟨⟨l.cpu, l.memory, drawn⟩, hcpu, hmemory, rfl⟩, exists_confidence.mp ⟨_, hconfidence⟩⟩
    · rintro ⟨⟨l, hcpu, hmemory, -⟩, hbounds⟩
      obtain ⟨d, hd⟩ := exists_confidence.mpr hbounds
      exact ⟨⟨l.cpu, l.memory, d⟩, hcpu, hmemory, hd⟩

end

theorem allocatesAlike_singleton {policy : SizingPolicy Float} {t : Trace Float} {u : Usage Float}
    (hcpu : u.cpu.p50.isFinite = true) (hmemory : u.memory.p50.isFinite = true) (hsteps : t.steps = [u]) :
    policy.AllocatesAlike t u := by
  have hone : t.steps = List.replicate 1 u := hsteps
  apply allocatesAlike_of_readings
  · rw [Trace.series_of_copies hone, Trace.series_of_copies hone]
    exact ⟨Stats.mean_singleton hcpu, rfl⟩
  · rw [Trace.series_of_copies hone, Trace.series_of_copies hone]
    exact ⟨Stats.mean_singleton hmemory, rfl⟩

/-! ## Copies of a step -/

section

variable {K : Type} [Field K] [LinearOrder K] [IsStrictOrderedRing K] [ElementaryFunctions K]
  {policy : SizingPolicy K} {t : Trace K} {u : Usage K} {n : ℕ}

theorem allocatesAlike_of_copies (hn : 0 < n) (hsteps : t.steps = List.replicate n u) :
    policy.AllocatesAlike t u := by
  apply allocatesAlike_of_readings
  · rw [Trace.series_of_copies hsteps, Trace.series_of_copies hsteps]
    exact ⟨Stats.mean_replicate hn _, Stats.maximum_replicate hn _⟩
  · rw [Trace.series_of_copies hsteps, Trace.series_of_copies hsteps]
    exact ⟨Stats.mean_replicate hn _, Stats.maximum_replicate hn _⟩

theorem confidence_of_stable {cpuTail memoryTail : List K} (hcpu : Stats.stability cpuTail = 1)
    (hmemory : Stats.stability memoryTail = 1) {c : K}
    (h : policy.confidence cpuTail memoryTail false = .ok c) :
    c = Scalar.confine 1 policy.minConfidence policy.maxConfidence := by
  have hbase : (0.5 : K) * (1 + 1) * 0.9 + 0.1 = 1 := by norm_num
  obtain ⟨nominal, hclamped, h⟩ := bind_eq_ok.mp h
  rw [hcpu, hmemory, hbase] at hclamped
  obtain ⟨-, rfl⟩ := Scalar.clamp_eq_ok.mp hclamped
  exact (Except.ok.inj h).symm

/-- In exact arithmetic a trace of copies of one step is labelled as the step is, but for the confidence, under
every policy.  Where no tail is negative both are fully stable, and without an episode the confidence is one
within its bounds.  In floating point a trace of one step with finite readings is labelled so as well. -/
theorem copies_labelled_as_one (hroot : Scalar.sqrt (0 : K) = 0) :
    (∀ (policy : SizingPolicy K) (t : Trace K) (u : Usage K) (n : ℕ), 0 < n → t.steps = List.replicate n u →
      policy.LabelsAlike t u ∧
      (t.episode = none → 0 ≤ u.cpu.p99 → 0 ≤ u.memory.p99 →
        Stats.FullyStable (t.series (·.cpu.p99)) ∧ Stats.FullyStable (t.series (·.memory.p99)) ∧
        ∀ l, policy.label t = .ok l →
          l.confidence = Scalar.confine 1 policy.minConfidence policy.maxConfidence)) ∧
    ∀ (policy : SizingPolicy Float) (t : Trace Float) (u : Usage Float), (∀ x ∈ u.toList, x.isFinite = true) →
      t.steps = [u] → policy.LabelsAlike t u := by
  constructor
  · intro policy t u n hn hsteps
    refine ⟨(allocatesAlike_of_copies hn hsteps).labelsAlike, fun hepisode hcpu hmemory => ?_⟩
    have hcpuStable : Stats.FullyStable (t.series (·.cpu.p99)) := by
      rw [Trace.series_of_copies hsteps]
      exact Stats.fullyStable_replicate hroot hn hcpu
    have hmemoryStable : Stats.FullyStable (t.series (·.memory.p99)) := by
      rw [Trace.series_of_copies hsteps]
      exact Stats.fullyStable_replicate hroot hn hmemory
    refine ⟨hcpuStable, hmemoryStable, fun l hl => ?_⟩
    obtain ⟨-, -, hconfidence⟩ := label_eq_ok.mp hl
    rw [hepisode] at hconfidence
    exact confidence_of_stable hcpuStable.2 hmemoryStable.2 hconfidence
  · intro policy t u hu hsteps
    have hmedians : u.cpu.p50 ∈ u.toList ∧ u.memory.p50 ∈ u.toList := by simp [Usage.toList]
    exact (allocatesAlike_singleton (hu _ hmedians.1) (hu _ hmedians.2) hsteps).labelsAlike

end

theorem eight_copies_labelled_as_one :
    letI : ElementaryFunctions ℝ := realFunctions
    let u : Usage ℝ := ⟨⟨1 / 4, 1 / 2, 3 / 4⟩, ⟨1 / 5, 1 / 4, 1 / 3⟩, 0, 0, 0, 0, 0, 0⟩
    let t : Trace ℝ := ⟨.web, ⟨0, 0, 1⟩, none, List.replicate 8 u⟩
    let v : Usage Float := ⟨⟨-0.0, 0.5, 0.75⟩, ⟨0.2, 0.25, 0.5⟩, 0.0, 0.0, 0.0, 0.0, 0.0, 0.0⟩
    (∃ l l', standard.label t = .ok l ∧ standard.labelPoint u 1 none = .ok l' ∧ l.cpu = l'.cpu ∧
      l.memory = l'.memory ∧ l.confidence = (standard : SizingPolicy ℝ).maxConfidence) ∧
    standard.LabelsAlike ⟨.web, ⟨0.0, 0.0, 1.0⟩, none, [v]⟩ v := by
  let _ : ElementaryFunctions ℝ := realFunctions
  intro u t v
  obtain ⟨hexact, hdouble⟩ := copies_labelled_as_one (K := ℝ) Real.sqrt_zero
  obtain ⟨halike, hstable⟩ := hexact standard t u 8 (by norm_num) rfl
  obtain ⟨l, hl⟩ := exists_label_exact t
  obtain ⟨⟨l', hl'⟩, -⟩ := (halike.exist 1 none).mp ⟨l, hl⟩
  obtain ⟨hcpu, hmemory⟩ := halike.agree 1 none l l' hl hl'
  obtain ⟨-, -, hconfidence⟩ := hstable rfl (by norm_num [u]) (by norm_num [u])
  refine ⟨⟨l, l', hl, hl', hcpu, hmemory, (hconfidence l hl).trans ?_⟩, hdouble standard _ v (by decide) rfl⟩
  rw [Scalar.confine, standard]
  norm_num

end SizingPolicy

end WorkloadSynth
