import WorkloadSynth.Proofs.Dataset.Digest
import WorkloadSynth.Proofs.Dataset.Pool

/-!
# Counters and digest agree

A production counts the plan of every sample as it is made; a digest counts the samples after they were
shuffled and dealt.  A sample repeats the archetype and the anomaly of its plan, and dealing only rearranges,
so the counters are raised by what the digest says, whatever they stood at before.
-/

set_option autoImplicit false

namespace WorkloadSynth

theorem Digest.total_ofDataset (d : Dataset Float) (r : Recipe) (generatedAt : Timestamp) :
    (ofDataset d r generatedAt).total = d.samples.length := by
  simp [total, ofDataset, Dataset.samples, Nat.add_assoc]

namespace Metrics

structure Ordered (m : Metrics) : Prop where
  samples : m.samples.Ordered
  anomalies : m.anomalies.Ordered

/-- What some samples leave in the metrics.  How long they took decides on buckets and sums alone. -/
structure Counts (before after : Metrics) (made : List (Sample Float)) : Prop where
  samples : after.samples = (made.map (·.trace.archetype.name)).foldl Tally.add before.samples
  anomalies : after.anomalies = (made.filterMap Sample.anomalyName?).foldl Tally.add before.anomalies
  observations : after.sampleSeconds.total = before.sampleSeconds.total + made.length
  bounds : after.sampleSeconds.bounds = before.sampleSeconds.bounds
  writes : after.writeSeconds = before.writeSeconds

variable {before after : Metrics}

theorem Counts.nil (m : Metrics) : m.Counts m [] := ⟨rfl, rfl, rfl, rfl, rfl⟩

theorem Counts.cons {s : Sample Float} {rest : List (Sample Float)} {seconds : Float} {anomaly : Option Anomaly}
    (hanomaly : s.anomalyName? = anomaly.map (·.name))
    (h : let m := (before.observeSample seconds).countSample s.trace.archetype
      (anomaly.elim m m.countAnomaly).Counts after rest) : before.Counts after (s :: rest) := by
  have hobservations : after.sampleSeconds.total = before.sampleSeconds.total + 1 + rest.length := by
    rw [h.observations]
    cases anomaly <;> rfl
  refine ⟨?_, ?_, ?_, ?_, ?_⟩
  · rw [h.samples]
    cases anomaly <;> rfl
  · rw [h.anomalies, List.filterMap_cons, hanomaly]
    cases anomaly <;> rfl
  · rw [hobservations, List.length_cons]
    omega
  · rw [h.bounds]
    cases anomaly <;> rfl
  · rw [h.writes]
    cases anomaly <;> rfl

/-- The metrics before and after a production, against the digest of what it produced. -/
structure Accounts (before after : Metrics) (digest : Digest) : Prop where
  samples : ∀ name, after.samples.count name = before.samples.count name + digest.byArchetype.count name
  anomalies : ∀ name, after.anomalies.count name = before.anomalies.count name + digest.byAnomaly.count name
  observations : after.sampleSeconds.total = before.sampleSeconds.total + digest.total
  bounds : after.sampleSeconds.bounds = before.sampleSeconds.bounds
  writes : after.writeSeconds = before.writeSeconds

theorem Counts.ordered {made : List (Sample Float)} (h : before.Counts after made) (hbefore : before.Ordered) :
    after.Ordered := by
  refine ⟨?_, ?_⟩
  · rw [h.samples]
    exact hbefore.samples.foldl_add _
  · rw [h.anomalies]
    exact hbefore.anomalies.foldl_add _

theorem Counts.accounts {made : List (Sample Float)} (h : before.Counts after made) (hbefore : before.Ordered)
    {d : Dataset Float} (hd : d.samples.Perm made) (r : Recipe) (generatedAt : Timestamp) :
    before.Accounts after (.ofDataset d r generatedAt) := by
  refine ⟨?_, ?_, ?_, h.bounds, h.writes⟩
  · intro name
    have hcount := (hd.map (·.trace.archetype.name)).count_eq name
    rw [h.samples, Tally.count_foldl_add hbefore.samples, ← hcount, ← d.archetypeTally_count]
    rfl
  · intro name
    have hcount := (hd.filterMap Sample.anomalyName?).count_eq name
    rw [h.anomalies, Tally.count_foldl_add hbefore.anomalies, ← hcount, ← d.anomalyTally_count]
    rfl
  · rw [h.observations, ← hd.length_eq, Digest.total_ofDataset]

end Metrics

namespace Assembly

variable (a : Assembly)

theorem anomalyName?_of_sample {p : Plan} {s : Sample Float} (h : a.sample p = .ok s) :
    s.anomalyName? = p.anomaly.map (·.name) := by
  rw [Sample.anomalyName?, a.episode_of_sample h, Plan.episode, Option.map_map]
  rfl

theorem metrics_addAll {p : Production} {before : Metrics} (hp : p.observed.metrics = some before)
    {timed : List (Sample Float × Float)} (hmade : ∀ w ∈ timed, a.sample (a.plan w.1.index) = .ok w.1) :
    ∃ after, (a.addAll p timed).observed.metrics = some after ∧ before.Counts after (timed.map Prod.fst) := by
  induction timed generalizing p before with
  | nil => exact ⟨before, hp, .nil before⟩
  | cons w rest ih =>
      obtain ⟨hw, hrest⟩ := List.forall_mem_cons.mp hmade
      have hcounted : (p.add a.recipe.val.sampleCount (a.plan w.1.index) w.1 w.2).observed.metrics =
          some (let m := (before.observeSample w.2).countSample (a.plan w.1.index).archetype
            (a.plan w.1.index).anomaly.elim m m.countAnomaly) := by
        simp only [Production.add, Observation.countSample, hp, Option.map_some]
        split_ifs <;> rfl
      obtain ⟨after, hafter, hcounts⟩ := ih hcounted hrest
      rw [← a.archetype_of_sample hw] at hcounts
      exact ⟨after, hafter, hcounts.cons (a.anomalyName?_of_sample hw)⟩

/-- With a policy whose bounds are in order every checked recipe is carried out to the same dataset, whatever
the monad, the clock, the journal and the metrics are.  Afterwards every counter of an archetype and of an
anomaly is greater by just the count of that name in the digest of the dataset, zero where the digest does not
list it; as many sample times were observed as there are samples, and no other metric is changed. -/
theorem counters_account_for_digest (hlength : a.recipe.val.traceLength < 2 ^ 64) (hp : a.policy.Finite)
    (ho : a.policy.Orderly) :
    ∃ d : Dataset Float,
      (∀ generatedAt, (Digest.ofDataset d a.recipe.val generatedAt).total = a.recipe.val.sampleCount) ∧
      ∀ (m : Type → Type) [Monad m] [LawfulMonad m] (clock : m Float) (before : Metrics) (journal : Journal),
        before.Ordered →
          ∃ run : m {o : Observation // ∃ after, o.metrics = some after ∧ after.Ordered ∧
              ∀ generatedAt, before.Accounts after (.ofDataset d a.recipe.val generatedAt)},
            a.produce clock ⟨some before, journal⟩ = (fun o => .ok (d, o.val)) <$> run := by
  obtain ⟨samples, hsamples⟩ := exists_map_ok fun i (_ : i ∈ List.range a.recipe.val.sampleCount) =>
    a.exists_numbered (a.recipe.val.sampleLength_lt hlength) hp ho i
  have hperm : (a.dealt samples).samples.Perm samples := Dataset.samples_deal_perm _ _ _ _
  refine ⟨a.dealt samples, ?_, ?_⟩
  · intro generatedAt
    rw [Digest.total_ofDataset, hperm.length_eq, a.length_of_numbered hsamples, List.length_range]
  · intro m _ _ clock before journal hbefore
    apply a.produce_keeping clock ⟨some before, journal⟩ hsamples
    intro seconds hseconds
    have hmade : ∀ w ∈ samples.zip seconds, a.sample (a.plan w.1.index) = .ok w.1 := by
      intro w hw
      exact a.sample_of_mem hsamples (List.of_mem_zip hw).1
    have hstart : (Observation.note ⟨some before, journal⟩ (.generating a.recipe.val)).metrics =
        some before := rfl
    obtain ⟨after, hafter, hcounts⟩ := a.metrics_addAll (p := ⟨#[], _⟩) hstart hmade
    rw [List.map_fst_zip hseconds.ge] at hcounts
    exact ⟨after, hafter, hcounts.ordered hbefore, hcounts.accounts hbefore hperm a.recipe.val⟩

theorem counters_after_twelve :
    let r : Recipe := { Recipe.standard with sampleCount := 12 }
    let before : Metrics := { Metrics.empty with samples := [("cron", 7), ("web", 2)], anomalies := [("noisy", 3)] }
    r.traceLength < 2 ^ 64 ∧ before.Ordered ∧ ∃ h : r.Valid,
      let a : Assembly := ⟨⟨r, h⟩, .standard⟩
      ∃ d o after, a.dataset ⟨some before, .anonymous⟩ = .ok (d, o) ∧ o.metrics = some after ∧
        after.sampleSeconds.total = 12 ∧ ∀ generatedAt, let digest := Digest.ofDataset d r generatedAt
          after.samples.count "cron" = 7 + digest.byArchetype.count "cron" ∧
          after.samples.count "batch" = digest.byArchetype.count "batch" ∧
          after.anomalies.count "noisy" = 3 + digest.byAnomaly.count "noisy" := by
  intro r before
  have hvalid : r.Valid := Recipe.valid_of_fault?_eq_none (by decide)
  have hlength : r.traceLength < 2 ^ 64 := by decide
  have hbefore : before.Ordered := ⟨by unfold Tally.Ordered; decide, by unfold Tally.Ordered; decide⟩
  refine ⟨hlength, hbefore, hvalid, ?_⟩
  intro a
  obtain ⟨d, htotal, hall⟩ := a.counters_account_for_digest hlength SizingPolicy.standard_finite
    SizingPolicy.standard_orderly
  obtain ⟨⟨o, after, hafter, _, haccounts⟩, hrun⟩ := hall Id (pure 0.0) before .anonymous hbefore
  refine ⟨d, o, after, hrun, hafter, ?_, ?_⟩
  · have hobservations := (haccounts ⟨0, 0⟩).observations
    rw [htotal] at hobservations
    exact hobservations
  · intro generatedAt digest
    have hcounts := haccounts generatedAt
    exact ⟨hcounts.samples "cron", (hcounts.samples "batch").trans (Nat.zero_add _), hcounts.anomalies "noisy"⟩

end Assembly

end WorkloadSynth
