import WorkloadSynth.Proofs.Dataset.Plan
import WorkloadSynth.Proofs.Workload.Label
import WorkloadSynth.Proofs.Workload.Trace

/-!
# Samples of checked recipes

Whatever a recipe has to be checked for is what the making of a sample relies on: a step length in
`(0, 168]` keeps time finite, a length of at least one gives flat mode its first step and an episode a
step to begin at, and the plan starts within the range that traces need.  So the trace of a plan is
always made, and with a policy whose bounds are in order its label as well.
-/

set_option autoImplicit false

namespace WorkloadSynth

open Binary64 (Within)
open WorkloadSynth.Random (Generator)

namespace Recipe

variable {r : Recipe}

theorem Valid.within_stepHours (h : r.Valid) : Within 0.0 168.0 r.stepHours :=
  ⟨Scalar.le_of_lt h.2.2.2.1.1, h.2.2.2.1.2, by decide, by decide⟩

theorem sampleLength_lt (r : Recipe) (h : r.traceLength < 2 ^ 64) : r.sampleLength < 2 ^ 64 := by
  unfold sampleLength
  split
  · exact h
  · norm_num

theorem Valid.half_lt (h : r.Valid) : r.sampleLength / 2 < r.sampleLength :=
  Nat.div_lt_self h.sampleLength_pos one_lt_two

end Recipe

/-- A trace is what a plan calls for: it starts and ends as planned, and its steps are well-formed. -/
structure Trace.Follows (t : Trace Float) (p : Plan) (length : ℕ) : Prop where
  archetype : t.archetype = p.archetype
  start : t.start = p.start
  episode : t.episode = p.episode length
  length : t.length = length
  wellFormed : ∀ u ∈ t.steps, u.WellFormed

theorem Trace.Follows.steps_ne_nil {t : Trace Float} {p : Plan} {length : ℕ} (h : t.Follows p length)
    (hpos : 0 < length) : t.steps ≠ [] := by
  intro hnil
  have hlength := h.length
  rw [Trace.length, hnil] at hlength
  exact hpos.ne hlength

namespace Assembly

variable (a : Assembly)

theorem trace_spec (hlength : a.recipe.val.sampleLength < 2 ^ 64) {p : Plan} (hp : p.start.InRange) :
    ∃ t streams, a.trace p = .ok (t, streams) ∧ t.Follows p a.recipe.val.sampleLength := by
  have hhours : Within 0.0 168.0 (a.model p).stepHours := a.recipe.property.within_stepHours
  obtain ⟨steps, streams, htrace, hsteps, hall⟩ := TraceModel.trace_spec
    (NoiseSource.Reliable.onFirst Generator.source_reliable)
    (NoiseSource.Reliable.onSecond Generator.source_reliable) hp hhours hlength.le
    (p.episode a.recipe.val.sampleLength)
    (Generator.ofStream a.recipe.val.seed .trace p.index,
      Generator.ofStream a.recipe.val.seed .anomaly p.index)
  refine ⟨_, streams, htrace, rfl, rfl, rfl, hsteps, ?_⟩
  intro u hu
  obtain ⟨i, hi⟩ := List.mem_iff_getElem?.mp hu
  exact (hall i u hi).1.wellFormed

theorem within_baseConfidence (g : Generator) : Within 0.85 0.95 (Generator.source.uniform 0.85 0.95 g).1 := by
  have hwidth : Within 0.0 (0.95 - 0.85) (0.95 - 0.85 : Float) := by decide
  have hmoved : Within 0.0 (0.95 - 0.85) ((0.95 - 0.85) * g.fraction.1) :=
    hwidth.mul (Generator.within_fraction g) (by decide)
  rw [Generator.source_uniform]
  exact (Within.self (by decide)).add hmoved (by decide)

theorem label_spec (hp : a.policy.Finite) (ho : a.policy.Orderly) {p : Plan} {t : Trace Float}
    (ht : t.Follows p a.recipe.val.sampleLength) (g : Generator) :
    ∃ l, a.label p t g = .ok l ∧ a.policy.Allows l.cpu ∧ a.policy.Allows l.memory ∧
      (a.recipe.val.mode = .sequence →
        a.policy.minConfidence ≤ l.confidence ∧ l.confidence ≤ a.policy.maxConfidence) ∧
      (a.recipe.val.mode = .flat → 0.0 ≤ l.confidence ∧ l.confidence ≤ 1.0) := by
  have hsome := ht.steps_ne_nil a.recipe.property.sampleLength_pos
  unfold label
  cases hmode : a.recipe.val.mode with
  | sequence =>
      obtain ⟨l, hl, hcpu, hmemory, hconfidence⟩ := SizingPolicy.label_spec hp ho ht.wellFormed
      exact ⟨l, hl, hcpu, hmemory, fun _ => hconfidence, nofun⟩
  | flat =>
      cases hsteps : t.steps with
      | nil => exact absurd hsteps hsome
      | cons first rest =>
          have hfirst : first.WellFormed := ht.wellFormed first (by rw [hsteps]; exact List.mem_cons_self)
          obtain ⟨l, hl, hcpu, hmemory, hconfidence⟩ :=
            SizingPolicy.labelPoint_spec hp ho hfirst (within_baseConfidence g).isFinite p.anomaly
          exact ⟨l, hl, hcpu, hmemory, nofun, fun _ => hconfidence⟩

section Congruence

variable {a b : Assembly}

theorem plan_congr (hseed : b.recipe.val.seed = a.recipe.val.seed)
    (harchetypes : b.recipe.val.archetypes = a.recipe.val.archetypes)
    (hratio : b.recipe.val.anomalyRatio = a.recipe.val.anomalyRatio)
    (hanomalies : b.recipe.val.anomalies = a.recipe.val.anomalies) (index : UInt64) :
    b.plan index = a.plan index := by
  simp only [plan, Plan.draw, Plan.draw?, hseed, harchetypes, hratio, hanomalies]

/-- Once it is planned, a sample reads the seed, the times of the trace, the mode and the policy. -/
theorem sample_congr (hseed : b.recipe.val.seed = a.recipe.val.seed)
    (hlength : b.recipe.val.sampleLength = a.recipe.val.sampleLength)
    (hhours : b.recipe.val.stepHours = a.recipe.val.stepHours)
    (hmode : b.recipe.val.mode = a.recipe.val.mode) (hpolicy : b.policy = a.policy) (p : Plan) :
    b.sample p = a.sample p := by
  have htrace : b.trace p = a.trace p := by
    simp only [trace, model, hseed, hlength, hhours, hmode]
  have hlabel (t : Trace Float) (g : Generator) : b.label p t g = a.label p t g := by
    rw [label, label, hmode, hpolicy]
  simp only [sample, htrace, hlabel]

end Congruence

theorem sample_eq {p : Plan} {t : Trace Float} {streams : Generator × Generator} {l : Recommendation Float}
    (ht : a.trace p = .ok (t, streams)) (hl : a.label p t streams.1 = .ok l) :
    a.sample p = .ok ⟨p.index, t, l⟩ :=
  bind_eq_ok.mpr ⟨(t, streams), ht, bind_eq_ok.mpr ⟨l, hl, rfl⟩⟩

theorem sample_eq_ok {p : Plan} {t : Trace Float} {streams : Generator × Generator}
    (ht : a.trace p = .ok (t, streams)) {s : Sample Float} :
    a.sample p = .ok s ↔ s.index = p.index ∧ s.trace = t ∧ a.label p t streams.1 = .ok s.label := by
  constructor
  · intro h
    obtain ⟨r, hr, h⟩ := bind_eq_ok.mp h
    obtain rfl : (t, streams) = r := Except.ok.inj (ht.symm.trans hr)
    obtain ⟨l, hl, ⟨⟩⟩ := bind_eq_ok.mp h
    exact ⟨rfl, rfl, hl⟩
  · rintro ⟨hindex, rfl, hl⟩
    rw [a.sample_eq ht hl, ← hindex]

theorem trace_of_sample {p : Plan} {s : Sample Float} (h : a.sample p = .ok s) :
    ∃ streams, a.trace p = .ok (s.trace, streams) := by
  obtain ⟨⟨t, streams⟩, ht, h⟩ := bind_eq_ok.mp h
  obtain ⟨l, -, h⟩ := bind_eq_ok.mp h
  cases h
  exact ⟨streams, ht⟩

theorem archetype_of_sample {p : Plan} {s : Sample Float} (h : a.sample p = .ok s) :
    s.trace.archetype = p.archetype := by
  obtain ⟨streams, ht⟩ := a.trace_of_sample h
  obtain ⟨steps, -, ht⟩ := bind_eq_ok.mp ht
  rw [← (Prod.mk.inj (Except.ok.inj ht)).1]
  rfl

theorem episode_of_sample {p : Plan} {s : Sample Float} (h : a.sample p = .ok s) :
    s.trace.episode = p.episode a.recipe.val.sampleLength := by
  obtain ⟨streams, ht⟩ := a.trace_of_sample h
  obtain ⟨steps, -, ht⟩ := bind_eq_ok.mp ht
  rw [← (Prod.mk.inj (Except.ok.inj ht)).1]

theorem follows_of_sample (hlength : a.recipe.val.sampleLength < 2 ^ 64) {index : UInt64} {s : Sample Float}
    (h : a.sample (a.plan index) = .ok s) : s.trace.Follows (a.plan index) a.recipe.val.sampleLength := by
  obtain ⟨t, streams, htrace, hfollows⟩ := a.trace_spec hlength (Plan.draw_fits a.recipe index).start.inRange
  obtain ⟨-, rfl, -⟩ := (a.sample_eq_ok htrace).mp h
  exact hfollows

theorem sample_eq_ok_of_sequence (h : a.recipe.val.mode = .sequence) {p : Plan} {t : Trace Float}
    {streams : Generator × Generator} (ht : a.trace p = .ok (t, streams)) {s : Sample Float} :
    a.sample p = .ok s ↔ s.index = p.index ∧ s.trace = t ∧ a.policy.label t = .ok s.label := by
  rw [a.sample_eq_ok ht, label, h]

theorem sample_eq_ok_of_flat (h : a.recipe.val.mode = .flat) {p : Plan} {t : Trace Float}
    {streams : Generator × Generator} (ht : a.trace p = .ok (t, streams)) {u : Usage Float}
    {rest : List (Usage Float)} (hsteps : t.steps = u :: rest) {s : Sample Float} :
    a.sample p = .ok s ↔ s.index = p.index ∧ s.trace = t ∧ a.policy.labelPoint u
      (Generator.source.uniform 0.85 0.95 streams.1).1 p.anomaly = .ok s.label := by
  rw [a.sample_eq_ok ht, label, h]
  simp only [hsteps]

theorem exists_sample (hlength : a.recipe.val.sampleLength < 2 ^ 64) {p : Plan} (hp : p.start.InRange)
    (hlabel : ∀ t streams, a.trace p = .ok (t, streams) → ∃ l, a.label p t streams.1 = .ok l) :
    ∃ s, a.sample p = .ok s := by
  obtain ⟨t, streams, htrace, -⟩ := a.trace_spec hlength hp
  obtain ⟨l, hl⟩ := hlabel t streams htrace
  exact ⟨_, a.sample_eq htrace hl⟩

/-- The plan of any index of a checked recipe is drawn and its sample is made: no draw is from an empty
list, no clamp is given an empty interval and no step is missing.  The plan is one that the recipe
allows; the sample repeats it, has all its steps and its episode, if any, from the middle on; its label
is in range. -/
theorem sample_of_checked (recipe : CheckedRecipe) (hlength : recipe.val.traceLength < 2 ^ 64)
    (index : UInt64) :
    let a : Assembly := ⟨recipe, .standard⟩
    let r := recipe.val
    let p := a.plan index
    (Plan.draw? r index = some p ∧ p.index = index ∧ p.archetype ∈ r.archetypes ∧
      (0.0 ≤ p.start.hour ∧ p.start.hour < 1.0) ∧ (0.0 ≤ p.start.day ∧ p.start.day < 1.0) ∧
      (0.1 ≤ p.start.ageDays ∧ p.start.ageDays < 30.0) ∧
      (r.anomalyRatio ≤ 0.0 → p.anomaly = none) ∧
      (1.0 ≤ r.anomalyRatio → ∃ k ∈ r.anomalies, p.anomaly = some k) ∧
      ∀ k, p.anomaly = some k → k ∈ r.anomalies) ∧
    ∃ s, a.sample p = .ok s ∧
      (s.index = index ∧ s.trace.archetype = p.archetype ∧ s.trace.start = p.start ∧
        s.trace.length = r.sampleLength ∧
        s.trace.episode = p.anomaly.map (fun k => ⟨k, r.sampleLength / 2⟩) ∧
        r.sampleLength / 2 < r.sampleLength) ∧
      (s.label.cpu.request ≤ s.label.cpu.limit ∧ s.label.memory.request ≤ s.label.memory.limit) ∧
      (0.01 ≤ s.label.cpu.request ∧ s.label.cpu.request ≤ 0.95) ∧
      (0.01 ≤ s.label.cpu.limit ∧ s.label.cpu.limit ≤ 1.0) ∧
      (0.01 ≤ s.label.memory.request ∧ s.label.memory.request ≤ 0.95) ∧
      (0.01 ≤ s.label.memory.limit ∧ s.label.memory.limit ≤ 1.0) ∧
      (r.mode = .sequence → 0.3 ≤ s.label.confidence ∧ s.label.confidence ≤ 0.95) ∧
      (r.mode = .flat → 0.0 ≤ s.label.confidence ∧ s.label.confidence ≤ 1.0) := by
  intro a r p
  have hfits : p.Fits r := Plan.draw_fits recipe index
  have hindex : p.index = index := Plan.index_draw recipe index
  have hword : r.sampleLength < 2 ^ 64 := recipe.val.sampleLength_lt hlength
  have hanomalous : 1.0 ≤ r.anomalyRatio → ∃ k ∈ r.anomalies, p.anomaly = some k := by
    intro hone
    obtain ⟨k, hk⟩ := Option.ne_none_iff_exists'.mp (hfits.anomalous hone)
    exact ⟨k, hfits.kind k hk, hk⟩
  refine ⟨⟨Plan.draw?_eq_some_draw recipe index, hindex, hfits.archetype, hfits.start.hour,
    hfits.start.day, hfits.start.age, hfits.nominal, hanomalous, hfits.kind⟩, ?_⟩
  obtain ⟨t, streams, htrace, ht⟩ := a.trace_spec hword hfits.start.inRange
  obtain ⟨l, hl, hcpu, hmemory, hsequence, hflat⟩ :=
    a.label_spec SizingPolicy.standard_finite SizingPolicy.standard_orderly ht streams.1
  have hfloor {x : Allocation Float} (hx : SizingPolicy.standard.Allows x) : 0.01 ≤ x.limit :=
    LawfulOrder.le_trans hx.request.1 hx.limit.1
  exact ⟨⟨p.index, t, l⟩, a.sample_eq htrace hl,
    ⟨hindex, ht.archetype, ht.start, ht.length, ht.episode, recipe.property.half_lt⟩,
    ⟨hcpu.limit.1, hmemory.limit.1⟩, hcpu.request, ⟨hfloor hcpu, hcpu.limit.2⟩, hmemory.request,
    ⟨hfloor hmemory, hmemory.limit.2⟩, hsequence, hflat⟩

theorem sample_of_noisy_step :
    let r : Recipe := { Recipe.standard with mode := .flat, anomalyRatio := 1.0, anomalies := [.noisy] }
    r.traceLength < 2 ^ 64 ∧ ∃ h : r.Valid,
      let a : Assembly := ⟨⟨r, h⟩, .standard⟩
      (a.plan 7).anomaly = some .noisy ∧ ∃ s, a.sample (a.plan 7) = .ok s ∧ s.trace.length = 1 ∧
        s.trace.episode = some ⟨.noisy, 0⟩ ∧ 0.0 ≤ s.label.confidence ∧ s.label.confidence ≤ 1.0 := by
  intro r
  have hvalid : r.Valid := Recipe.valid_of_fault?_eq_none (by decide)
  have hlength : r.traceLength < 2 ^ 64 := by decide
  obtain ⟨⟨-, -, -, -, -, -, -, hanomalous, -⟩, s, hs, ⟨-, -, -, hsteps, hepisode, -⟩, -, -, -, -, -, -, hflat⟩ :=
    sample_of_checked ⟨r, hvalid⟩ hlength 7
  have hone : (1.0 : Float) ≤ 1.0 := by decide
  obtain ⟨k, hk, hplan⟩ := hanomalous hone
  obtain rfl : k = .noisy := List.mem_singleton.mp hk
  rw [hplan, Option.map_some] at hepisode
  have honset : r.sampleLength / 2 = 0 := by decide
  exact ⟨hlength, hvalid, hplan, s, hs, hsteps, honset ▸ hepisode, hflat rfl⟩

end Assembly

end WorkloadSynth
