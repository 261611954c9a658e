import WorkloadSynth.Proofs.Dataset.Pool
import WorkloadSynth.Proofs.Workload.Schedule

/-!
# Longer samples

Two recipes that differ in the length of a trace alone plan the same samples.  An episode begins in the
middle of its trace, so samples with one part ways; without one the shorter trace is the beginning of the
longer.
-/

set_option autoImplicit false

namespace WorkloadSynth

open WorkloadSynth.Random (Generator)

namespace Assembly

variable {a b : Assembly}

theorem sampleLength_of_sequence (h : a.recipe.val.mode = .sequence) :
    a.recipe.val.sampleLength = a.recipe.val.traceLength := by
  rw [Recipe.sampleLength, h]

theorem trace_of_nominal {p : Plan} (h : p.anomaly = none) :
    a.trace p = (a.model p).trace Generator.source.onFirst Generator.source.onSecond p.start
      a.recipe.val.sampleLength none (Generator.ofStream a.recipe.val.seed .trace p.index,
        Generator.ofStream a.recipe.val.seed .anomaly p.index) := by
  simp only [trace, Plan.episode, h, Option.map_none]

theorem trace_take_of_nominal
    (hrecipe : b.recipe.val = { a.recipe.val with traceLength := b.recipe.val.traceLength })
    (hmode : a.recipe.val.mode = .sequence) (hle : a.recipe.val.traceLength ≤ b.recipe.val.traceLength)
    {p : Plan} (hp : p.anomaly = none) {t : Trace Float} {streams : Generator × Generator}
    (h : b.trace p = .ok (t, streams)) :
    ∃ streams', a.trace p = .ok ({ t with steps := t.steps.take a.recipe.val.traceLength }, streams') := by
  have hmode' : b.recipe.val.mode = .sequence := (congrArg Recipe.mode hrecipe).trans hmode
  have hmodel : b.model p = a.model p := by
    rw [model, hrecipe]
    rfl
  have hseed : b.recipe.val.seed = a.recipe.val.seed := by rw [hrecipe]
  rw [trace_of_nominal hp, sampleLength_of_sequence hmode', hmodel, hseed] at h
  rw [trace_of_nominal hp, sampleLength_of_sequence hmode]
  exact TraceModel.trace_take _ _ _ _ _ hle h

theorem exists_sample_plan (hlength : a.recipe.val.traceLength < 2 ^ 64) (hp : a.policy.Finite)
    (ho : a.policy.Orderly) (index : UInt64) : ∃ s, a.sample (a.plan index) = .ok s := by
  have hmade := a.exists_numbered (a.recipe.val.sampleLength_lt hlength) hp ho index.toNat
  rwa [numbered, UInt64.ofNat_toNat] at hmade

theorem length_of_sequence_sample (hmode : a.recipe.val.mode = .sequence)
    (hlength : a.recipe.val.traceLength < 2 ^ 64) {index : UInt64} {s : Sample Float}
    (h : a.sample (a.plan index) = .ok s) : s.trace.steps.length = a.recipe.val.traceLength :=
  (a.follows_of_sample (a.recipe.val.sampleLength_lt hlength) h).length.trans (sampleLength_of_sequence hmode)

/-- Wherever a trace is made its source has been called for every step in the same nine ways and in the same
order, whatever it answered, whether or not medians are carried over and whatever episode there is; and the
traces of smaller lengths, made from the same sources with the same episode, are its beginnings.  So of two
checked recipes for sequences that differ in the length alone, the samples of a plan without an anomaly are
both made and the shorter trace is the beginning of the longer. -/
theorem calls_fixed_and_beginnings_kept :
    (∀ (σ τ α : Type) [Scalar α] (model : TraceModel α) (nominal : NoiseSource σ α)
      (injected : NoiseSource τ α) (start : Moment α) (episode : Option Episode) (length : ℕ) (s r : σ × τ)
      (t : Trace α), model.trace nominal.onFirst injected.onSecond start length episode s = .ok (t, r) →
        (∀ log : Transcript α, ∃ made : Transcript α,
          model.trace nominal.transcribed.onFirst injected.onSecond start length episode ((s.1, log), s.2) =
            .ok (t, (r.1, log ++ made), r.2) ∧
          made.calls = (List.replicate length (StepNoise.calls model.archetype.profile)).flatten) ∧
        ∀ n ≤ length, ∃ r', model.trace nominal.onFirst injected.onSecond start n episode s =
          .ok ({ t with steps := t.steps.take n }, r')) ∧
    ∀ recipe recipe' : CheckedRecipe, recipe.val.mode = .sequence →
      recipe'.val = { recipe.val with traceLength := recipe'.val.traceLength } →
      recipe.val.traceLength ≤ recipe'.val.traceLength → recipe'.val.traceLength < 2 ^ 64 →
      let a : Assembly := ⟨recipe, .standard⟩
      let b : Assembly := ⟨recipe', .standard⟩
      ∀ index, b.plan index = a.plan index ∧ ((a.plan index).anomaly = none →
        ∃ s s', a.sample (a.plan index) = .ok s ∧ b.sample (b.plan index) = .ok s' ∧
          s.trace.steps.length = recipe.val.traceLength ∧
          s'.trace.steps.length = recipe'.val.traceLength ∧ s.trace.steps <+: s'.trace.steps) := by
  constructor
  · intro σ τ α _ model nominal injected start episode length s r t h
    refine ⟨?_, fun n hn => model.trace_take start _ _ episode hn h⟩
    intro log
    refine ⟨(StepNoise.drawMany nominal model.archetype.profile length s.1).1.flatMap
      (StepNoise.transcript model.archetype.profile), ?_, ?_⟩
    · rw [model.trace_onFirst_transcribed, h]
      rfl
    · rw [StepNoise.calls_flatMap_transcript, StepNoise.length_drawMany]
  · intro recipe recipe' hmode hrecipe hle hlength a b index
    have hplan : b.plan index = a.plan index :=
      plan_congr (by rw [hrecipe]) (by rw [hrecipe]) (by rw [hrecipe]) (by rw [hrecipe]) index
    have hmode' : b.recipe.val.mode = .sequence := (congrArg Recipe.mode hrecipe).trans hmode
    refine ⟨hplan, ?_⟩
    intro hnone
    obtain ⟨s, hs⟩ := exists_sample_plan (a := a) (hle.trans_lt hlength) SizingPolicy.standard_finite
      SizingPolicy.standard_orderly index
    obtain ⟨s', hs'⟩ := exists_sample_plan (a := b) hlength SizingPolicy.standard_finite
      SizingPolicy.standard_orderly index
    obtain ⟨streams, ht⟩ := a.trace_of_sample hs
    obtain ⟨streams', ht'⟩ := b.trace_of_sample hs'
    rw [hplan] at ht'
    obtain ⟨_, htake⟩ := trace_take_of_nominal (a := a) (b := b) hrecipe hmode hle hnone ht'
    have htrace := (Prod.mk.inj (Except.ok.inj (ht.symm.trans htake))).1
    refine ⟨s, s', hs, hs', ?_, ?_, ?_⟩
    · exact length_of_sequence_sample (a := a) hmode (hle.trans_lt hlength) hs
    · exact length_of_sequence_sample (a := b) hmode' hlength hs'
    · rw [htrace]
      exact List.take_prefix _ _

/-- A leak from the second of four steps on, and samples of three and ten steps without an anomaly. -/
theorem beginnings_of_four_and_ten :
    let model : TraceModel Float := ⟨.database, 0.5, true⟩
    let start : Moment Float := ⟨0.25, 0.5, 3.0⟩
    let streams := (Generator.ofSeed 1, Generator.ofSeed 2)
    let r : Recipe := { Recipe.standard with traceLength := 3, anomalyRatio := 0.0 }
    let r' : Recipe := { r with traceLength := 10 }
    (∃ t left made left', model.trace Generator.source.onFirst Generator.source.onSecond start 4
        (some ⟨.memoryLeak, 1⟩) streams = .ok (t, left) ∧
      model.trace Generator.source.transcribed.onFirst Generator.source.onSecond start 4
        (some ⟨.memoryLeak, 1⟩) ((streams.1, []), streams.2) = .ok (t, (left.1, made), left.2) ∧
      made.calls.length = 36 ∧
      model.trace Generator.source.onFirst Generator.source.onSecond start 2 (some ⟨.memoryLeak, 1⟩)
        streams = .ok ({ t with steps := t.steps.take 2 }, left')) ∧
    (r.mode = .sequence ∧ r.traceLength ≤ r'.traceLength ∧ r'.traceLength < 2 ^ 64) ∧
    ∃ (h : r.Valid) (h' : r'.Valid),
      let a : Assembly := ⟨⟨r, h⟩, .standard⟩
      let b : Assembly := ⟨⟨r', h'⟩, .standard⟩
      (a.plan 7).anomaly = none ∧ ∃ s s', a.sample (a.plan 7) = .ok s ∧ b.sample (b.plan 7) = .ok s' ∧
        s.trace.steps.length = 3 ∧ s'.trace.steps.length = 10 ∧ s.trace.steps <+: s'.trace.steps := by
  intro model start streams r r'
  obtain ⟨hruns, hsamples⟩ := calls_fixed_and_beginnings_kept
  constructor
  · have hstart : start.InRange := ⟨by decide, by decide, by decide⟩
    have hhours : Binary64.Within 0.0 168.0 model.stepHours := by decide
    obtain ⟨steps, left, hrun, -, -⟩ := TraceModel.trace_spec
      (NoiseSource.Reliable.onFirst Generator.source_reliable)
      (NoiseSource.Reliable.onSecond Generator.source_reliable) hstart hhours
      (by norm_num : 4 ≤ 2 ^ 64) (some ⟨.memoryLeak, 1⟩) streams
    obtain ⟨htranscribed, htake⟩ := hruns _ _ _ model _ _ start _ 4 streams _ _ hrun
    obtain ⟨made, hmade, hcalls⟩ := htranscribed []
    obtain ⟨left', hshort⟩ := htake 2 (by norm_num)
    refine ⟨_, left, made, left', hrun, hmade, ?_, hshort⟩
    rw [hcalls]
    rfl
  · have hvalid : r.Valid := Recipe.valid_of_fault?_eq_none (by decide)
    have hvalid' : r'.Valid := ⟨hvalid.1, by decide, hvalid.2.2⟩
    have hlength : r'.traceLength < 2 ^ 64 := by decide
    have hle : r.traceLength ≤ r'.traceLength := by decide
    refine ⟨⟨rfl, hle, hlength⟩, hvalid, hvalid', ?_⟩
    intro a b
    have hnone : r.anomalyRatio ≤ 0.0 := by decide
    have hplan : (a.plan 7).anomaly = none := (Plan.draw_fits ⟨r, hvalid⟩ 7).nominal hnone
    exact ⟨hplan, (hsamples ⟨r, hvalid⟩ ⟨r', hvalid'⟩ rfl rfl hle hlength 7).2 hplan⟩

end Assembly

end WorkloadSynth
