import WorkloadSynth.Proofs.Dataset.Pool

/-!
# What a production reports

The journal of a run tells a production from its recipe to its parts.  In between it has an entry whenever the
pool has grown by a full interval: how many entries there are after a sample depends on the size of the pool
alone (`Reported`), so the whole pool leaves one for every interval that fits into it.
-/

set_option autoImplicit false

namespace WorkloadSynth

/-! ## What a journal takes in -/

namespace Journal

/-- Entries as they are written down: under the identifier of the run, or not at all. -/
def underRun (j : Journal) (entries : List Entry) : List Event :=
  j.run.elim [] fun id => entries.map (Event.mk (some id))

structure Continues (before after : Journal) (since : List Event) : Prop where
  run : after.run = before.run
  events : after.events.toList = before.events.toList ++ since

variable {before between after : Journal} {since since' : List Event}

theorem underRun_append (j : Journal) (entries entries' : List Entry) :
    j.underRun (entries ++ entries') = j.underRun entries ++ j.underRun entries' := by
  unfold underRun
  cases j.run with
  | none => rfl
  | some id => exact List.map_append

theorem underRun_nil (j : Journal) : j.underRun [] = [] := by
  unfold underRun
  cases j.run <;> rfl

theorem Continues.refl (j : Journal) : j.Continues j [] := ⟨rfl, (List.append_nil _).symm⟩

theorem Continues.trans (h : before.Continues between since) (h' : between.Continues after since') :
    before.Continues after (since ++ since') where
  run := h'.run.trans h.run
  events := by rw [h'.events, h.events, List.append_assoc]

theorem Continues.underRun_eq (h : before.Continues after since) (entries : List Entry) :
    after.underRun entries = before.underRun entries := by
  rw [underRun, h.run, underRun]

theorem Continues.note (h : before.Continues between since) (entry : Entry) :
    before.Continues (between.note entry) (since ++ before.underRun [entry]) := by
  rw [← h.underRun_eq]
  apply h.trans
  rw [underRun, Journal.note]
  cases hrun : between.run with
  | none => exact Continues.refl between
  | some id => exact ⟨hrun.symm, Array.toList_push⟩

theorem Continues.debug (h : before.Continues between since) (entry : Entry) :
    before.Continues (between.debug entry) (since ++ [⟨none, entry⟩]) :=
  h.trans ⟨rfl, Array.toList_push⟩

end Journal

/-! ## Progress -/

namespace Production

def progress (made total : ℕ) : List Entry :=
  (List.range' 1 (made / reportInterval)).map fun k => .progress (reportInterval * k) total

theorem progress_succ (made total : ℕ) : progress (made + 1) total =
    progress made total ++
      if (made + 1) % reportInterval = 0 then [Entry.progress (made + 1) total] else [] := by
  unfold progress
  split_ifs with hfull
  · have hdvd : reportInterval ∣ made + 1 := Nat.dvd_of_mod_eq_zero hfull
    have hnext : reportInterval * (1 + made / reportInterval) = made + 1 := by
      rw [Nat.add_comm 1, ← Nat.succ_div_of_dvd hdvd]
      exact Nat.mul_div_cancel' hdvd
    rw [Nat.succ_div_of_dvd hdvd, List.range'_1_concat, List.map_append, List.map_singleton, hnext]
  · have hdvd : ¬ reportInterval ∣ made + 1 := fun h => hfull (Nat.mod_eq_zero_of_dvd h)
    rw [Nat.succ_div_of_not_dvd hdvd, List.append_nil]

def Reported (before : Journal) (total : ℕ) (p : Production) : Prop :=
  before.Continues p.observed.journal (before.underRun (progress p.pool.size total))

variable {before : Journal} {total : ℕ} {p : Production}

theorem Reported.empty (observed : Observation) : Reported observed.journal total ⟨#[], observed⟩ := by
  have hnone : progress 0 total = [] := rfl
  rw [Reported, List.size_toArray, List.length_nil, hnone, Journal.underRun_nil]
  exact .refl observed.journal

theorem Reported.add (h : Reported before total p) (plan : Plan) (sample : Sample Float) (seconds : Float) :
    Reported before total (p.add total plan sample seconds) := by
  have hsize : (p.pool.push sample).size = p.pool.size + 1 := Array.size_push sample
  have hcounted : (p.observed.countSample plan seconds).journal = p.observed.journal := rfl
  unfold Reported Production.add
  simp only [hsize]
  rw [progress_succ, Journal.underRun_append]
  split_ifs
  · exact h.note _
  · rw [Journal.underRun_nil, List.append_nil]
    exact h

theorem Reported.addAll (a : Assembly) (h : Reported before a.recipe.val.sampleCount p)
    (timed : List (Sample Float × Float)) : Reported before a.recipe.val.sampleCount (a.addAll p timed) := by
  induction timed generalizing p with
  | nil => exact h
  | cons w rest ih => exact ih (h.add _ _ _)

end Production

/-! ## A whole production -/

def Recipe.entries (r : Recipe) (d : Dataset Float) : List Entry :=
  [Entry.generating r] ++ Production.progress r.sampleCount r.sampleCount ++
    [Entry.split d.train.length d.validation.length d.test.length]

structure Event.Says (e : Event) (id name : String) (counts : List (String × ℕ)) : Prop where
  run : e.run = some id
  identifier : ("run_id", .text id) ∈ e.record.fields
  name : ("event", .text name) ∈ e.record.fields
  counts : (counts.map fun c => (c.1, FieldValue.count c.2)) ⊆ e.record.fields

def Recipe.account (r : Recipe) (d : Dataset Float) : List (String × List (String × ℕ)) :=
  [("generation_started", [("num_samples", r.sampleCount), ("seq_len", r.sampleLength)])] ++
    ((List.range' 1 (r.sampleCount / 10000)).map fun k =>
      ("generation_progress", [("generated", 10000 * k), ("total", r.sampleCount)])) ++
    [("dataset_split",
      [("train", d.train.length), ("validation", d.validation.length), ("test", d.test.length)])]

theorem Event.Says.of_entry (id : String) {name : String} {entry : Entry} {counts : List (String × ℕ)}
    (hname : entry.event? = some name)
    (hcounts : (counts.map fun c => (c.1, FieldValue.count c.2)) ⊆ entry.details) :
    (Event.mk (some id) entry).Says id name counts where
  run := rfl
  identifier := by simp [Event.record]
  name := by simp [Event.record, hname]
  counts := fun field h => List.mem_append_right _ (hcounts h)

namespace Journal

/-- What a journal has after a production.  That the pool is complete is told for debugging, whether there is a run
to tell it of or not. -/
def Tells (before after : Journal) (r : Recipe) (d : Dataset Float) : Prop :=
  before.Continues after (before.underRun [.generating r] ++
    before.underRun (Production.progress r.sampleCount r.sampleCount) ++
    [⟨none, .poolComplete r.sampleCount⟩] ++
    before.underRun [.split d.train.length d.validation.length d.test.length])

def added (before after : Journal) : List Event :=
  (after.events.toList.drop before.events.size).filter (·.run.isSome)

variable {before after : Journal} {r : Recipe} {d : Dataset Float}

theorem Tells.added_eq (h : before.Tells after r d) {id : String} (hrun : before.run = some id) :
    before.added after = (r.entries d).map (Event.mk (some id)) := by
  have hunder (entries : List Entry) : before.underRun entries = entries.map (Event.mk (some id)) := by
    rw [underRun, hrun]
    rfl
  have hkept (entries : List Entry) :
      (entries.map (Event.mk (some id))).filter (·.run.isSome) = entries.map (Event.mk (some id)) := by
    rw [List.filter_eq_self]
    intro e he
    obtain ⟨entry, -, rfl⟩ := List.mem_map.mp he
    rfl
  have hdebug : [Event.mk none (.poolComplete r.sampleCount)].filter (·.run.isSome) = [] := rfl
  rw [added, h.events, ← Array.length_toList, List.drop_left]
  simp only [hunder, List.filter_append, hkept, hdebug, List.append_nil, Recipe.entries, List.map_append]

theorem Tells.added_eq_nil (h : before.Tells after r d) (hrun : before.run = none) : before.added after = [] := by
  have hunder (entries : List Entry) : before.underRun entries = [] := by
    rw [underRun, hrun]
    rfl
  rw [added, h.events, ← Array.length_toList, List.drop_left]
  simp only [hunder]
  rfl

theorem Tells.forall₂_account (h : before.Tells after r d) {id : String} (hrun : before.run = some id) :
    List.Forall₂ (fun e said => e.Says id said.1 said.2) (before.added after) (r.account d) := by
  rw [h.added_eq hrun, List.forall₂_map_left_iff]
  refine List.rel_append (List.rel_append (.cons ?_ .nil) ?_) (.cons ?_ .nil)
  · exact Event.Says.of_entry id rfl (List.cons_subset_cons _ (List.cons_subset_cons _ (List.nil_subset _)))
  · rw [Production.progress, List.forall₂_map_left_iff, List.forall₂_map_right_iff]
    exact List.forall₂_same.mpr fun k _ => Event.Says.of_entry id rfl (List.Subset.refl _)
  · exact Event.Says.of_entry id rfl (List.Subset.refl _)

end Journal

namespace Assembly

variable (a : Assembly)

theorem tells_produced (metrics : Option Metrics) (journal : Journal) {samples : List (Sample Float)}
    (hcount : samples.length = a.recipe.val.sampleCount) {seconds : List Float}
    (hseconds : seconds.length = samples.length) :
    journal.Tells (a.finish (a.addAll ⟨#[], Observation.note ⟨metrics, journal⟩ (.generating a.recipe.val)⟩
      (samples.zip seconds))).2.journal a.recipe.val (a.dealt samples) := by
  have hstart := (Journal.Continues.refl journal).note (.generating a.recipe.val)
  have hpool := (Production.Reported.empty (Observation.note ⟨metrics, journal⟩ (.generating a.recipe.val))).addAll a
    (samples.zip seconds)
  have hdealt := a.finish_addAll (Observation.note ⟨metrics, journal⟩ (.generating a.recipe.val)) hseconds
  generalize hp : a.addAll _ (samples.zip seconds) = p at hpool hdealt
  have hsize : p.pool.size = a.recipe.val.sampleCount := by
    rw [← hp, pool_addAll, List.map_fst_zip hseconds.ge]
    simp [hcount]
  -- The pool is filled on a journal that has the start noted, so the two stretches are put together.
  change (journal.note _).Continues p.observed.journal ((journal.note _).underRun _) at hpool
  rw [hstart.underRun_eq, hsize] at hpool
  have hend := ((hstart.trans hpool).debug (.poolComplete p.pool.size)).note
    (.split (a.finish p).1.train.length (a.finish p).1.validation.length (a.finish p).1.test.length)
  change journal.Continues (a.finish p).2.journal _ at hend
  rw [hsize, hdealt] at hend
  exact hend

/-- With a policy whose bounds are in order every checked recipe is carried out to the same dataset, whatever the
monad, the clock, the metrics and the journal are.  What the journal held stays in front.  If it is of a run, its
records of the production are the start with the number and the length of the samples, a report for every
interval that fits into the pool, and the sizes of the parts, which add up to the pool: in this order, each with
the identifier of the run, and no others.  If it is of none, nothing is told under an identifier. -/
theorem production_told_in_order (hlength : a.recipe.val.traceLength < 2 ^ 64) (hp : a.policy.Finite)
    (ho : a.policy.Orderly) :
    ∃ d : Dataset Float, d.train.length + d.validation.length + d.test.length = a.recipe.val.sampleCount ∧
      ∀ (m : Type → Type) [Monad m] [LawfulMonad m] (clock : m Float) (metrics : Option Metrics) (journal : Journal),
        ∃ run : m {o : Observation //
            (o.journal.run = journal.run ∧ journal.events.toList <+: o.journal.events.toList) ∧
            (∀ id, journal.run = some id →
              List.Forall₂ (fun e said => e.Says id said.1 said.2) (journal.added o.journal)
                (a.recipe.val.account d)) ∧
            (journal.run = none → journal.added o.journal = [])},
          a.produce clock ⟨metrics, journal⟩ = (fun o => .ok (d, o.val)) <$> run := by
  obtain ⟨samples, hsamples⟩ := exists_map_ok fun i (_ : i ∈ List.range a.recipe.val.sampleCount) =>
    a.exists_numbered (a.recipe.val.sampleLength_lt hlength) hp ho i
  have hcount : samples.length = a.recipe.val.sampleCount :=
    (a.length_of_numbered hsamples).trans List.length_range
  refine ⟨a.dealt samples, ?_, ?_⟩
  · obtain ⟨htrain, hvalidation, htest⟩ := Dataset.length_deal a.recipe.val.sampleLength a.recipe.val.mode
      a.recipe.val.seed samples.toArray
    rw [List.size_toArray, hcount] at htrain hvalidation htest
    rw [dealt, htrain, hvalidation, htest]
    omega
  · intro m _ _ clock metrics journal
    apply a.produce_keeping clock ⟨metrics, journal⟩ hsamples
    intro seconds hseconds
    have htold := a.tells_produced metrics journal hcount hseconds
    exact ⟨⟨htold.run, htold.events ▸ List.prefix_append _ _⟩, fun id => htold.forall₂_account,
      htold.added_eq_nil⟩

theorem two_reports_of_25000 :
    let r : Recipe := { Recipe.standard with sampleCount := 25000 }
    let journal := (Journal.ofRun "night").note (.started "0.1.0")
    r.traceLength < 2 ^ 64 ∧ ∃ h : r.Valid,
      let a : Assembly := ⟨⟨r, h⟩, .standard⟩
      a.policy.Finite ∧ a.policy.Orderly ∧ ∃ d o e₁ e₂ e₃ e₄,
        a.dataset ⟨none, journal⟩ = .ok (d, o) ∧ journal.added o.journal = [e₁, e₂, e₃, e₄] ∧
        e₁.Says "night" "generation_started" [("num_samples", 25000), ("seq_len", 10)] ∧
        e₂.Says "night" "generation_progress" [("generated", 10000), ("total", 25000)] ∧
        e₃.Says "night" "generation_progress" [("generated", 20000), ("total", 25000)] ∧
        ∃ train validation test, train + validation + test = 25000 ∧
          e₄.Says "night" "dataset_split" [("train", train), ("validation", validation), ("test", test)] := by
  intro r journal
  have hvalid : r.Valid := Recipe.valid_of_fault?_eq_none (by decide)
  have hlength : r.traceLength < 2 ^ 64 := by decide
  refine ⟨hlength, hvalid, ?_⟩
  intro a
  have hfinite : a.policy.Finite := SizingPolicy.standard_finite
  have horderly : a.policy.Orderly := SizingPolicy.standard_orderly
  obtain ⟨d, hsum, hall⟩ := a.production_told_in_order hlength hfinite horderly
  obtain ⟨⟨o, _, hsays, _⟩, hrun⟩ := hall Id (pure 0.0) none journal
  have haccount : Recipe.account { Recipe.standard with sampleCount := 25000 } d =
      [("generation_started", [("num_samples", 25000), ("seq_len", 10)]),
        ("generation_progress", [("generated", 10000), ("total", 25000)]),
        ("generation_progress", [("generated", 20000), ("total", 25000)]),
        ("dataset_split",
          [("train", d.train.length), ("validation", d.validation.length), ("test", d.test.length)])] := rfl
  have hrecords := hsays "night" rfl
  rw [haccount] at hrecords
  obtain ⟨e₁, _, h₁, hthree, hadded⟩ := List.forall₂_cons_right_iff.mp hrecords
  obtain ⟨e₂, _, h₂, htwo, rfl⟩ := List.forall₂_cons_right_iff.mp hthree
  obtain ⟨e₃, _, h₃, hone, rfl⟩ := List.forall₂_cons_right_iff.mp htwo
  obtain ⟨e₄, _, h₄, hnone, rfl⟩ := List.forall₂_cons_right_iff.mp hone
  obtain rfl := List.forall₂_nil_right_iff.mp hnone
  exact ⟨hfinite, horderly, d, o, e₁, e₂, e₃, e₄, hrun, hadded, h₁, h₂, h₃, _, _, _, hsum, h₄⟩

end Assembly

end WorkloadSynth
