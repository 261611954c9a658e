import WorkloadSynth.Proofs.Workload.Exact
import WorkloadSynth.Proofs.Workload.Influence

/-!
# Memory without noise

Read in exact arithmetic, a run without noise never gives memory back.  A median that is handed on lags behind
the base of its resource, which rises with age, so the next median, a mean of the two, stands between them
(`Carry.blend_between`) and has no less to lean on in turn (`TraceModel.Stands`).  The upper percentiles follow
the median.
-/

set_option autoImplicit false

namespace WorkloadSynth

def StepNoise.quiet {α : Type} [Scalar α] : StepNoise α := ⟨0.0, 0.0, 0.0, 0.0, 0.0, 0.0, 0.0, 0.0, 0.0⟩

theorem StepNoise.draw_silent {σ α : Type} [Scalar α] (p : Profile α) (s : σ) :
    draw .silent p s = (quiet, s) := rfl

section

variable {σ K : Type} [Field K] [LinearOrder K] [IsStrictOrderedRing K] [ElementaryFunctions K]

instance (priority := low) : Profile.MedianRange K where
  zero_le_least := by norm_num
  least_le_greatest := by norm_num

/-! ## Profiles -/

structure Profile.Sound (p : Profile K) : Prop where
  least : 0.01 ≤ p.baseMemory
  greatest : p.baseMemory ≤ 0.95
  growth : 0 ≤ p.memoryGrowth
  weight : 0 ≤ p.autocorrelation ∧ p.autocorrelation < 1

theorem Archetype.profile_sound (a : Archetype) : (a.profile : Profile K).Sound := by
  cases a <;> constructor <;> simp only [profile] <;> norm_num

theorem Profile.Sound.baseAt_rises {p : Profile K} (hp : p.Sound) (start : Moment K) (index : ℕ) {stepHours : K}
    (hhours : 0 < stepHours) :
    (p.baseAt (start.later index stepHours)).memory ≤ (p.baseAt (start.later (index + 1) stepHours)).memory ∧
      (0 < p.memoryGrowth → (p.baseAt (start.later index stepHours)).memory <
        (p.baseAt (start.later (index + 1) stepHours)).memory) := by
  have hstep : 0 < stepHours / 24.0 := div_pos hhours (by norm_num)
  have hnext : (Scalar.ofNat (index + 1) : K) = Scalar.ofNat index + 1 := Nat.cast_succ index
  have hbase : (p.baseAt (start.later (index + 1) stepHours)).memory =
      (p.baseAt (start.later index stepHours)).memory + p.memoryGrowth * (stepHours / 24.0) := by
    simp only [baseAt, Moment.later, hnext]
    rw [add_one_mul, add_div, ← add_assoc, mul_add, ← add_assoc]
  rw [hbase]
  exact ⟨le_add_of_nonneg_right (mul_nonneg hp.growth hstep.le),
    fun hgrowth => lt_add_of_pos_right _ (mul_pos hgrowth hstep)⟩

theorem Carry.blend_between {weight x : K} (hw : 0 ≤ weight ∧ weight < 1) {previous : Option (Carry K)}
    {base : Carry K} (hx : ∀ c ∈ previous, c.memory = x) (h : x ≤ base.memory) :
    x ≤ (blend previous weight base).memory ∧ (blend previous weight base).memory ≤ base.memory ∧
      (x < base.memory → x < (blend previous weight base).memory) := by
  cases previous with
  | none => exact ⟨h, le_refl _, id⟩
  | some c =>
      have hmean : (blend (some c) weight base).memory = weight * x + (1 - weight) * base.memory := by
        simp only [blend, hx c rfl]
        norm_num
      have hbelow : base.memory - (weight * x + (1 - weight) * base.memory) = weight * (base.memory - x) := by
        ring
      have habove : weight * x + (1 - weight) * base.memory - x = (1 - weight) * (base.memory - x) := by ring
      rw [hmean]
      refine ⟨?_, ?_, fun hlt => ?_⟩
      · exact sub_nonneg.mp (habove ▸ mul_nonneg (sub_nonneg.mpr hw.2.le) (sub_nonneg.mpr h))
      · exact sub_nonneg.mp (hbelow ▸ mul_nonneg hw.1 (sub_nonneg.mpr h))
      · exact sub_pos.mp (habove ▸ mul_pos (sub_pos.mpr hw.2) (sub_pos.mpr hlt))

/-! ## Steps -/

theorem Quantiles.stretched_mono {p50 p50' f g : K} (hf : 0 ≤ f) (hg : 0 ≤ g) (h : p50 ≤ p50')
    {q q' : Quantiles K} (hq : stretched p50 f g = .ok q) (hq' : stretched p50' f g = .ok q') :
    q.p95 ≤ q'.p95 ∧ q.p99 ≤ q'.p99 := by
  obtain ⟨-, -, rfl⟩ := of_stretched hq
  obtain ⟨hroom, hone, rfl⟩ := of_stretched hq'
  have hmiddle := Scalar.confine_le_confine h hroom (mul_le_mul_of_nonneg_right h hf)
  exact ⟨hmiddle, Scalar.confine_le_confine hmiddle hone (mul_le_mul_of_nonneg_right hmiddle hg)⟩

namespace TraceModel

abbrev profile (model : TraceModel K) : Profile K := model.archetype.profile

def base (model : TraceModel K) (start : Moment K) (index : ℕ) : K :=
  (model.profile.baseAt (start.later index model.stepHours)).memory

/-- A median and the next one: no less, and more unless memory does not grow or has reached its bound. -/
def Rises (model : TraceModel K) (x y : K) : Prop := x ≤ y ∧ (0 < model.profile.memoryGrowth → x < 0.95 → x < y)

structure Stands (model : TraceModel K) (start : Moment K) (index : ℕ) (previous : Option (Carry K)) (x : K) :
    Prop where
  greatest : x ≤ 0.95
  base : x ≤ model.base start index
  grows : 0 < model.profile.memoryGrowth → x < model.base start index
  handed : ∀ c ∈ previous, c.memory = x
  flat : model.profile.memoryGrowth = 0 → ∀ c ∈ previous, c.memory = model.profile.baseMemory

structure Quiet (model : TraceModel K) (start : Moment K) (index : ℕ) (u : Usage K) : Prop where
  memory : Profile.memoryQuantiles u.memory.p50 StepNoise.quiet = .ok u.memory
  le_base : u.memory.p50 ≤ model.base start index
  flat : model.profile.memoryGrowth = 0 → u.memory.p50 = model.profile.baseMemory

variable {model : TraceModel K} {start : Moment K}

theorem baseMemory_le_base (hage : 0 ≤ start.ageDays) (hhours : 0 < model.stepHours) (index : ℕ) :
    model.profile.baseMemory ≤ model.base start index := by
  have hsound : model.profile.Sound := model.archetype.profile_sound
  have helapsed : 0 ≤ (index : K) * model.stepHours / 24.0 :=
    div_nonneg (mul_nonneg (Nat.cast_nonneg index) hhours.le) (by norm_num)
  exact le_add_of_nonneg_right (mul_nonneg hsound.growth (add_nonneg hage helapsed))

omit [IsStrictOrderedRing K] in
theorem base_flat (hflat : model.profile.memoryGrowth = 0) (index : ℕ) :
    model.base start index = model.profile.baseMemory := by
  simp only [base, Profile.baseAt, hflat, zero_mul, add_zero]

section

variable {index : ℕ} {previous : Option (Carry K)} {x : K} {u : Usage K} {c : Carry K}

theorem median_of_quiet (hmakes : model.profile.Makes (start.later index model.stepHours) previous .quiet u c) :
    c.memory = u.memory.p50 ∧ Profile.memoryQuantiles u.memory.p50 StepNoise.quiet = .ok u.memory ∧
      u.memory.p50 = Scalar.confine (Carry.blend previous model.profile.autocorrelation
        (model.profile.baseAt (start.later index model.stepHours))).memory 0.01 0.95 := by
  have hmemory := hmakes.memory
  have hmedian : u.memory.p50 = c.memory := by
    rw [Profile.memoryQuantiles_eq] at hmemory
    obtain ⟨-, -, hq⟩ := Quantiles.of_stretched hmemory
    rw [hq]
  refine ⟨hmedian.symm, hmedian ▸ hmemory, ?_⟩
  rw [hmedian, hmakes.memoryMedian, Profile.median, StepNoise.quiet]
  norm_num

variable (h : model.Stands start index previous x)
  (hmakes : model.profile.Makes (start.later index model.stepHours) previous .quiet u c)

include h hmakes

theorem rises_of_makes : model.Rises x u.memory.p50 := by
  have hsound : model.profile.Sound := model.archetype.profile_sound
  obtain ⟨-, -, hmedian⟩ := median_of_quiet hmakes
  obtain ⟨hlow, -, hstrict⟩ := Carry.blend_between hsound.weight h.handed h.base
  rw [hmedian]
  refine ⟨Scalar.le_confine hlow h.greatest, fun hgrowth hroom => ?_⟩
  have hlt := hstrict (h.grows hgrowth)
  unfold Scalar.confine
  split_ifs with hleast
  · exact hlt.trans hleast
  · exact hroom
  · exact hlt

variable (hage : 0 ≤ start.ageDays) (hhours : 0 < model.stepHours)

include hage hhours

theorem quiet_of_makes : model.Quiet start index u := by
  have hsound : model.profile.Sound := model.archetype.profile_sound
  obtain ⟨-, hmemory, hmedian⟩ := median_of_quiet hmakes
  have hbase := baseMemory_le_base hage hhours index
  obtain ⟨-, hhigh, -⟩ := Carry.blend_between hsound.weight h.handed h.base
  refine ⟨hmemory, ?_, fun hflat => ?_⟩
  · rw [hmedian]
    exact Scalar.confine_le hhigh (hsound.least.trans hbase)
  · obtain ⟨hfrom, hto, -⟩ := Carry.blend_between hsound.weight (h.flat hflat) hbase
    have hblend := le_antisymm (hto.trans_eq (base_flat hflat index)) hfrom
    rw [hmedian, hblend]
    exact Scalar.confine_eq_self hsound.least hsound.greatest

theorem stands_of_makes : model.Stands start (index + 1) (model.handOn c) u.memory.p50 := by
  have hsound : model.profile.Sound := model.archetype.profile_sound
  obtain ⟨hcarry, -, hmedian⟩ := median_of_quiet hmakes
  have hquiet := quiet_of_makes h hmakes hage hhours
  obtain ⟨hrise, hstrict⟩ := hsound.baseAt_rises start index hhours
  exact {
    greatest := hmedian ▸ (Scalar.confine_mem (le_refl _) Profile.MedianRange.least_le_greatest).2
    base := hquiet.le_base.trans hrise
    grows := fun hgrowth => hquiet.le_base.trans_lt (hstrict hgrowth)
    handed := fun d hd => eq_of_mem_handOn hd ▸ hcarry
    flat := fun hflat d hd => eq_of_mem_handOn hd ▸ hcarry.trans (hquiet.flat hflat) }

end

/-! ## Runs -/

theorem stepsFrom_quiet (injected : NoiseSource σ K) (hage : 0 ≤ start.ageDays) (hhours : 0 < model.stepHours)
    (count : ℕ) {index : ℕ} {previous : Option (Carry K)} {x : K} (h : model.Stands start index previous x)
    (s : σ) : ∃ steps, model.stepsFrom .silent injected start none count index previous s = .ok (steps, s) ∧
      steps.length = count ∧ (x :: steps.map (·.memory.p50)).IsChain model.Rises ∧
      ∀ i u, steps[i]? = some u → model.Quiet start (index + i) u := by
  induction count generalizing index previous x with
  | zero => exact ⟨[], rfl, rfl, .singleton _, nofun⟩
  | succ count ih =>
      obtain ⟨u, c, hstep, -⟩ := model.profile.exists_nominalStep (start.later index model.stepHours) previous
        StepNoise.quiet
      have hmakes := Profile.makes_of_nominalStep hstep
      obtain ⟨rest, hrest, hlength, hchain, hquiet⟩ := ih (stands_of_makes h hmakes hage hhours)
      refine ⟨u :: rest, ?_, congrArg (· + 1) hlength, ?_, ?_⟩
      · rw [handOn] at hrest
        simp only [stepsFrom, step, StepNoise.draw_silent, hstep, hrest, bind, Except.bind, pure, Except.pure]
      · exact hchain.cons_cons (rises_of_makes h hmakes)
      · intro i v hv
        cases i with
        | zero =>
            obtain rfl : u = v := by simpa using hv
            exact quiet_of_makes h hmakes hage hhours
        | succ i =>
            rw [show index + (i + 1) = index + 1 + i by omega]
            exact hquiet i v (by simpa using hv)

theorem stands_first (hage : 0 ≤ start.ageDays) (hhours : 0 < model.stepHours) :
    model.Stands start 0 none 0.0 := by
  have hsound : model.profile.Sound := model.archetype.profile_sound
  have hpos : (0.0 : K) < model.base start 0 :=
    lt_of_lt_of_le (by norm_num) (hsound.least.trans (baseMemory_le_base hage hhours 0))
  exact ⟨by norm_num, hpos.le, fun _ => hpos, nofun, fun _ => nofun⟩

theorem percentiles_mono {u v : Usage K} {i j : ℕ} (hu : model.Quiet start i u) (hv : model.Quiet start j v)
    (h : u.memory.p50 ≤ v.memory.p50) : u.memory.p95 ≤ v.memory.p95 ∧ u.memory.p99 ≤ v.memory.p99 := by
  have hmiddle : (0 : K) ≤ 1.0 + 0.1 + (StepNoise.quiet : StepNoise K).memoryMiddle := by
    rw [StepNoise.quiet]
    norm_num
  have htail : (0 : K) ≤ 1.0 + 0.05 + (StepNoise.quiet : StepNoise K).memoryTail := by
    rw [StepNoise.quiet]
    norm_num
  exact Quantiles.stretched_mono hmiddle htail h hu.memory hv.memory

/-- Without noise and without an episode every trace is made, and along it no percentile of memory falls.  Its
median never passes what the profile asks for at the age of the step; that of a database rises until it reaches
its bound, and where the profile has no growth the median is its base throughout. -/
theorem memory_never_shrinks (model : TraceModel K) {start : Moment K} (hage : 0 ≤ start.ageDays)
    (hhours : 0 < model.stepHours) (injected : NoiseSource σ K) (length : ℕ) (s : σ) :
    ∃ t, model.trace .silent injected start length none s = .ok (t, s) ∧ t.length = length ∧
      ((t.series (·.memory.p50)).Pairwise (· ≤ ·) ∧ (t.series (·.memory.p95)).Pairwise (· ≤ ·) ∧
        (t.series (·.memory.p99)).Pairwise (· ≤ ·)) ∧
      (∀ i u, t.steps[i]? = some u → u.memory.p50 ≤ model.profile.baseMemory +
        model.profile.memoryGrowth * (start.later i model.stepHours).ageDays) ∧
      (model.archetype = .database → (t.series (·.memory.p50)).IsChain fun x y => x < 0.95 → x < y) ∧
      (model.profile.memoryGrowth = 0 → ∀ u ∈ t.steps, u.memory.p50 = model.profile.baseMemory) := by
  obtain ⟨steps, hrun, hlength, hchain, hquiet⟩ := stepsFrom_quiet injected hage hhours length
    (stands_first hage hhours) s
  have hat : ∀ u ∈ steps, ∃ i, model.Quiet start i u := by
    intro u hu
    obtain ⟨i, hi⟩ := List.mem_iff_getElem?.mp hu
    exact ⟨_, hquiet i u hi⟩
  -- Neighbours rise, so any two medians do; the other percentiles are made from the medians.
  have hmedians : steps.Pairwise fun u v => u.memory.p50 ≤ v.memory.p50 := by
    have hrising := List.isChain_iff_pairwise.mp (hchain.tail.imp fun _ _ h => h.1)
    exact List.pairwise_map.mp hrising
  have hothers : steps.Pairwise fun u v => u.memory.p95 ≤ v.memory.p95 ∧ u.memory.p99 ≤ v.memory.p99 := by
    refine hmedians.imp_of_mem fun {u v} hu hv h => ?_
    obtain ⟨i, hi⟩ := hat u hu
    obtain ⟨j, hj⟩ := hat v hv
    exact percentiles_mono hi hj h
  refine ⟨⟨model.archetype, start, none, steps⟩, ?_, hlength, ⟨?_, ?_, ?_⟩, ?_, ?_, ?_⟩
  · simp only [trace, hrun, bind, Except.bind, pure, Except.pure]
  · exact List.pairwise_map.mpr hmedians
  · exact List.pairwise_map.mpr (hothers.imp fun h => h.1)
  · exact List.pairwise_map.mpr (hothers.imp fun h => h.2)
  · intro i u hu
    have hbase := (hquiet i u hu).le_base
    rwa [Nat.zero_add] at hbase
  · intro hdatabase
    have hgrowth : 0 < model.profile.memoryGrowth := by
      rw [profile, hdatabase]
      change (0 : K) < 0.02
      norm_num
    exact hchain.tail.imp fun _ _ h => h.2 hgrowth
  · intro hflat u hu
    obtain ⟨i, hi⟩ := hat u hu
    exact hi.flat hflat

end TraceModel

end

theorem TraceModel.database_grows_through_week :
    letI : ElementaryFunctions ℝ := realFunctions
    let model : TraceModel ℝ := ⟨.database, 24, true⟩
    let start : Moment ℝ := ⟨0, 0, 1⟩
    (0 ≤ start.ageDays ∧ 0 < model.stepHours) ∧
    ∃ t : Trace ℝ, model.trace .silent .silent start 7 none () = .ok (t, ()) ∧ t.length = 7 ∧
      (t.series (·.memory.p50)).IsChain (· < ·) := by
  let _ : ElementaryFunctions ℝ := realFunctions
  intro model start
  have hage : 0 ≤ start.ageDays := by norm_num [start]
  have hhours : 0 < model.stepHours := by norm_num [model]
  obtain ⟨t, hrun, hlength, -, hbound, hstrict, -⟩ := model.memory_never_shrinks hage hhours .silent 7 ()
  have hroom : ∀ x ∈ t.series (·.memory.p50), x < 0.95 := by
    intro x hx
    obtain ⟨u, hu, rfl⟩ := List.mem_map.mp hx
    obtain ⟨i, hi⟩ := List.mem_iff_getElem?.mp hu
    have hlt : i < 7 := hlength ▸ (List.getElem?_eq_some_iff.mp hi).1
    refine lt_of_le_of_lt (hbound i u hi) ?_
    change (0.6 : ℝ) + 0.02 * (1 + (i : ℝ) * 24 / 24.0) < 0.95
    have hcast : (i : ℝ) ≤ 6 := by exact_mod_cast Nat.lt_succ_iff.mp hlt
    norm_num
    linarith
  refine ⟨⟨hage, hhours⟩, t, hrun, hlength, ?_⟩
  exact (hstrict rfl).imp_of_mem_imp fun {x y} hx _ h => h (hroom x hx)

end WorkloadSynth
