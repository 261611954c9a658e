import WorkloadSynth.Proofs.Dataset.Pool
import WorkloadSynth.Proofs.Workload.Replicas

/-!
# Traces of a single step

A trace of one step has no step to hand medians on to, and its averages and maxima are the readings of the
step itself.  So sequences of length one are the samples of flat mode but for the confidence, and in flat
mode the length asked for plays no part.
-/

set_option autoImplicit false

namespace WorkloadSynth

open WorkloadSynth.Random (Generator)

/-! ## Runs of one step -/

theorem TraceModel.trace_one_eq {σ α : Type} [Scalar α] (model : TraceModel α) (carries : Bool)
    (nominal injected : NoiseSource σ α) (start : Moment α) (episode : Option Episode) (s : σ) :
    { model with carries }.trace nominal injected start 1 episode s =
      model.trace nominal injected start 1 episode s := by
  simp only [trace, stepsFrom, step]
  cases model.archetype.profile.nominalStep (start.later 0 model.stepHours) none
      (StepNoise.draw nominal model.archetype.profile s).1 with
  | error fault => rfl
  | ok r =>
      cases episode with
      | none => rfl
      | some e =>
          simp only [bind, Except.bind]
          cases e.strike injected 0 r.1 (StepNoise.draw nominal model.archetype.profile s).2 <;> rfl

theorem Quantiles.Low.isFinite_median {q : Quantiles Float} (h : q.Low) : q.p50.isFinite = true :=
  Binary64.isFinite_of_between (by decide) (by decide) h.median.1 h.median.2

theorem Usage.Moderate.labelsAlike {u : Usage Float} (hu : u.Moderate) (policy : SizingPolicy Float)
    {t : Trace Float} (hsteps : t.steps = [u]) : policy.LabelsAlike t u :=
  (SizingPolicy.allocatesAlike_singleton hu.cpu.isFinite_median hu.memory.isFinite_median hsteps).labelsAlike

/-! ## Samples of one step -/

namespace Recipe

def singleStep (r : Recipe) : Recipe := { r with mode := .sequence, traceLength := 1 }

theorem Valid.singleStep {r : Recipe} (h : r.Valid) : r.singleStep.Valid :=
  ⟨h.1, one_ne_zero, h.2.2⟩

end Recipe

namespace Assembly

variable {a b : Assembly}

theorem exists_trace_one (hone : a.recipe.val.sampleLength = 1) {p : Plan} (hp : p.start.InRange) :
    ∃ u streams, a.trace p = .ok (⟨p.archetype, p.start, p.episode 1, [u]⟩, streams) ∧ u.Moderate := by
  have hhours : Binary64.Within 0.0 168.0 (a.model p).stepHours := a.recipe.property.within_stepHours
  obtain ⟨steps, streams, htrace, hsteps, hall⟩ := TraceModel.trace_spec
    (NoiseSource.Reliable.onFirst Generator.source_reliable)
    (NoiseSource.Reliable.onSecond Generator.source_reliable) hp hhours
    (by norm_num : 1 ≤ 2 ^ 64) (p.episode 1)
    (Generator.ofStream a.recipe.val.seed .trace p.index,
      Generator.ofStream a.recipe.val.seed .anomaly p.index)
  obtain ⟨u, rfl⟩ := List.length_eq_one_iff.mp hsteps
  refine ⟨u, streams, ?_, (hall 0 u rfl).1⟩
  simp only [trace, hone]
  exact htrace

theorem trace_singleStep (h : b.recipe.val = a.recipe.val.singleStep)
    (hone : a.recipe.val.sampleLength = 1) (p : Plan) : b.trace p = a.trace p := by
  have hmodel : b.model p = { a.model p with carries := true } := by
    rw [model, h]
    rfl
  have hlength : b.recipe.val.sampleLength = 1 := by
    rw [h]
    rfl
  have hseed : b.recipe.val.seed = a.recipe.val.seed := by
    rw [h]
    rfl
  simp only [trace, hmodel, hlength, hseed, hone, TraceModel.trace_one_eq]

theorem sample_singleStep (hflat : a.recipe.val.mode = .flat) (hsequence : b.recipe.val.mode = .sequence)
    (hpolicy : b.policy = a.policy) {p : Plan} {t : Trace Float} {streams : Generator × Generator}
    {u : Usage Float} (htrace : a.trace p = .ok (t, streams)) (hsame : b.trace p = a.trace p)
    (hsteps : t.steps = [u]) (hu : u.Moderate) :
    (∀ s s', a.sample p = .ok s → b.sample p = .ok s' →
      s' = { s with label := { s.label with confidence := s'.label.confidence } }) ∧
    ((∃ s', b.sample p = .ok s') ↔
      (∃ s, a.sample p = .ok s) ∧ a.policy.minConfidence ≤ a.policy.maxConfidence) := by
  have hpoint (s : Sample Float) := a.sample_eq_ok_of_flat hflat htrace hsteps (s := s)
  have hwhole (s : Sample Float) := b.sample_eq_ok_of_sequence hsequence (hsame.trans htrace) (s := s)
  rw [hpolicy] at hwhole
  have halike := hu.labelsAlike a.policy hsteps
  constructor
  · intro s s' hs hs'
    obtain ⟨hindex, ht, hs⟩ := (hpoint s).mp hs
    obtain ⟨hindex', ht', hs'⟩ := (hwhole s').mp hs'
    obtain ⟨hcpu, hmemory⟩ := halike.agree _ _ _ _ hs' hs
    obtain ⟨i, t', ⟨cpu, memory, confidence⟩⟩ := s'
    obtain rfl : i = s.index := hindex'.trans hindex.symm
    obtain rfl : t' = s.trace := ht'.trans ht.symm
    obtain rfl : cpu = s.label.cpu := hcpu
    obtain rfl : memory = s.label.memory := hmemory
    rfl
  · have hlabel := halike.exist (Generator.source.uniform 0.85 0.95 streams.1).1 p.anomaly
    constructor
    · rintro ⟨s', hs'⟩
      obtain ⟨⟨l, hl⟩, hbounds⟩ := hlabel.mp ⟨_, ((hwhole s').mp hs').2.2⟩
      exact ⟨⟨⟨p.index, t, l⟩, (hpoint _).mpr ⟨rfl, rfl, hl⟩⟩, hbounds⟩
    · rintro ⟨⟨s, hs⟩, hbounds⟩
      obtain ⟨l, hl⟩ := hlabel.mpr ⟨⟨_, ((hpoint s).mp hs).2.2⟩, hbounds⟩
      exact ⟨⟨p.index, t, l⟩, (hwhole _).mpr ⟨rfl, rfl, hl⟩⟩

/-- In flat mode the length that is asked for is not looked at. -/
theorem sample_congr_length (hpolicy : b.policy = a.policy) (hflat : a.recipe.val.mode = .flat)
    (hrecipe : b.recipe.val = { a.recipe.val with traceLength := b.recipe.val.traceLength }) :
    b.numbered = a.numbered ∧ ∀ samples, b.dealt samples = a.dealt samples := by
  have hseed : b.recipe.val.seed = a.recipe.val.seed := by rw [hrecipe]
  have hmode : b.recipe.val.mode = a.recipe.val.mode := by rw [hrecipe]
  have hlength : b.recipe.val.sampleLength = a.recipe.val.sampleLength := by
    rw [Recipe.sampleLength, Recipe.sampleLength, hmode, hflat]
  constructor
  · funext i
    rw [numbered, numbered, plan_congr hseed (by rw [hrecipe]) (by rw [hrecipe]) (by rw [hrecipe]),
      sample_congr hseed hlength (by rw [hrecipe]) hmode hpolicy]
  · exact dealt_congr hseed hlength hmode

theorem dataset_congr_length (hpolicy : b.policy = a.policy) (hflat : a.recipe.val.mode = .flat)
    (hrecipe : b.recipe.val = { a.recipe.val with traceLength := b.recipe.val.traceLength })
    (observed observed' : Observation) {d : Dataset Float} (h : ∃ o, a.dataset observed = .ok (d, o)) :
    ∃ o, b.dataset observed' = .ok (d, o) := by
  obtain ⟨o, ho⟩ := h
  obtain ⟨samples, hsamples, rfl⟩ := a.samples_of_dataset ho
  obtain ⟨hnumbered, hdealt⟩ := sample_congr_length hpolicy hflat hrecipe
  have hcount : b.recipe.val.sampleCount = a.recipe.val.sampleCount := by rw [hrecipe]
  rw [← hnumbered, ← hcount] at hsamples
  rw [← hdealt]
  exact b.dataset_of_samples observed' hsamples

/-- A flat recipe and the same recipe for sequences of length one agree in all but the confidence: they
plan the same samples and make the same traces, and where the policy labels both the labels have the same
resources.  It labels the sequences if it labels the single steps and has an interval for the confidence.
The length that a flat recipe asks for does not matter even for the confidence. -/
theorem flat_agrees_with_singleStep (recipe : CheckedRecipe) (hflat : recipe.val.mode = .flat)
    (policy : SizingPolicy Float) :
    let flat : Assembly := ⟨recipe, policy⟩
    let sequence : Assembly := ⟨⟨recipe.val.singleStep, recipe.property.singleStep⟩, policy⟩
    (∀ index, let p := flat.plan index
      sequence.plan index = p ∧
      (∃ u streams, flat.trace p =
          .ok (⟨p.archetype, p.start, p.anomaly.map fun k => ⟨k, 0⟩, [u]⟩, streams) ∧
        sequence.trace p = flat.trace p) ∧
      (∀ s s', flat.sample p = .ok s → sequence.sample p = .ok s' →
        s' = { s with label := { s.label with confidence := s'.label.confidence } }) ∧
      ((∃ s', sequence.sample p = .ok s') ↔
        (∃ s, flat.sample p = .ok s) ∧ policy.minConfidence ≤ policy.maxConfidence) ∧
      (policy.Finite → policy.Orderly → ∃ s, flat.sample p = .ok s)) ∧
    ∀ other : CheckedRecipe, other.val = { recipe.val with traceLength := other.val.traceLength } →
      ∀ observed observed',
        (∀ d, (∃ o, flat.dataset observed = .ok (d, o)) ↔
          ∃ o, (⟨other, policy⟩ : Assembly).dataset observed' = .ok (d, o)) ∧
        (policy.Finite → policy.Orderly → ∃ d o, flat.dataset observed = .ok (d, o)) := by
  intro flat sequence
  have hone : flat.recipe.val.sampleLength = 1 := by
    simp only [flat, Recipe.sampleLength, hflat]
  have hstep (index : UInt64) := exists_trace_one hone (Plan.draw_fits recipe index).start.inRange
  have hmade (hp : policy.Finite) (ho : policy.Orderly) (index : UInt64) :
      ∃ s, flat.sample (flat.plan index) = .ok s := by
    obtain ⟨u, streams, htrace, hu⟩ := hstep index
    obtain ⟨l, hl, -⟩ := SizingPolicy.labelPoint_spec hp ho hu.wellFormed
      (within_baseConfidence streams.1).isFinite (flat.plan index).anomaly
    exact ⟨⟨_, _, l⟩, (flat.sample_eq_ok_of_flat hflat htrace rfl).mpr ⟨rfl, rfl, hl⟩⟩
  constructor
  · intro index p
    obtain ⟨u, streams, htrace, hu⟩ := hstep index
    have hsame : sequence.trace p = flat.trace p := trace_singleStep rfl hone p
    obtain ⟨hagree, hlabelled⟩ := sample_singleStep (a := flat) (b := sequence) hflat rfl rfl
      htrace hsame rfl hu
    exact ⟨rfl, ⟨u, streams, htrace, hsame⟩, hagree, hlabelled, fun hp ho => hmade hp ho index⟩
  · intro other hother observed observed'
    constructor
    · intro d
      have hback : recipe.val = { other.val with traceLength := recipe.val.traceLength } := by
        rw [hother]
      have hflat' : other.val.mode = .flat := by
        rw [hother]
        exact hflat
      exact ⟨dataset_congr_length (a := flat) (b := ⟨other, policy⟩) rfl hflat hother observed observed',
        dataset_congr_length (a := ⟨other, policy⟩) (b := flat) rfl hflat' hback observed' observed⟩
    · intro hp ho
      obtain ⟨samples, hsamples⟩ := exists_map_ok fun i (_ : i ∈ List.range recipe.val.sampleCount) =>
        hmade hp ho (UInt64.ofNat i)
      obtain ⟨o, hdataset⟩ := flat.dataset_of_samples observed hsamples
      exact ⟨_, o, hdataset⟩

theorem flat_lengths_ten_and_three :
    let r : Recipe := { Recipe.standard with mode := .flat }
    r.mode = .flat ∧ ∃ (h : r.Valid) (h' : { r with traceLength := 3 }.Valid),
      let flat : Assembly := ⟨⟨r, h⟩, .standard⟩
      let sequence : Assembly := ⟨⟨r.singleStep, h.singleStep⟩, .standard⟩
      (∃ d o o', flat.dataset .none = .ok (d, o) ∧
        (⟨⟨{ r with traceLength := 3 }, h'⟩, .standard⟩ : Assembly).dataset .none = .ok (d, o')) ∧
      ∃ s s', flat.sample (flat.plan 7) = .ok s ∧ sequence.sample (flat.plan 7) = .ok s' ∧
        s'.trace = s.trace ∧ s'.label.cpu = s.label.cpu ∧ s'.label.memory = s.label.memory := by
  intro r
  have hvalid : r.Valid := Recipe.valid_of_fault?_eq_none (by decide)
  have hvalid' : { r with traceLength := 3 }.Valid := ⟨hvalid.1, by decide, hvalid.2.2⟩
  refine ⟨rfl, hvalid, hvalid', ?_⟩
  intro flat sequence
  obtain ⟨hsamples, hdatasets⟩ := flat_agrees_with_singleStep ⟨r, hvalid⟩ rfl .standard
  have hfinite := SizingPolicy.standard_finite
  have horderly := SizingPolicy.standard_orderly
  constructor
  · obtain ⟨hiff, hmade⟩ := hdatasets ⟨{ r with traceLength := 3 }, hvalid'⟩ rfl .none .none
    obtain ⟨d, o, hd⟩ := hmade hfinite horderly
    obtain ⟨o', ho'⟩ := (hiff d).mp ⟨o, hd⟩
    exact ⟨d, o, o', hd, ho'⟩
  · obtain ⟨-, -, hagree, hlabelled, hmade⟩ := hsamples 7
    obtain ⟨s, hs⟩ := hmade hfinite horderly
    obtain ⟨s', hs'⟩ := hlabelled.mpr ⟨⟨s, hs⟩, horderly.confidence⟩
    have hsame := hagree s s' hs hs'
    exact ⟨s, s', hs, hs', by rw [hsame], by rw [hsame], by rw [hsame]⟩

end Assembly

end WorkloadSynth
