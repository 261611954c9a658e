import WorkloadSynth.Dataset.Production
import WorkloadSynth.Proofs.Dataset.Partition
import WorkloadSynth.Proofs.Dataset.Sampling

/-!
# The pool of a dataset

A production goes through the indices from the first on and keeps the sample of each.  The pool that it
ends with is the list of these samples whatever the clock said and whatever was observed on the way, and
the dataset is that pool, dealt.
-/

set_option autoImplicit false

namespace WorkloadSynth

theorem exists_map_ok {ε β : Type} {f : ℕ → Except ε β} {indices : List ℕ}
    (h : ∀ i ∈ indices, ∃ b, f i = .ok b) : ∃ results : List β, indices.map f = results.map .ok := by
  induction indices with
  | nil => exact ⟨[], rfl⟩
  | cons i rest ih =>
      obtain ⟨b, hb⟩ := h i List.mem_cons_self
      obtain ⟨results, hresults⟩ := ih fun j hj => h j (List.mem_cons_of_mem i hj)
      exact ⟨b :: results, by rw [List.map_cons, hb, hresults, List.map_cons]⟩

namespace Assembly

variable (a : Assembly)

def numbered (i : ℕ) : Except RangeFault (Sample Float) := a.sample (a.plan (UInt64.ofNat i))

theorem index_numbered {i : ℕ} {s : Sample Float} (h : a.numbered i = .ok s) : s.index = UInt64.ofNat i := by
  obtain ⟨⟨t, streams⟩, -, h⟩ := bind_eq_ok.mp h
  obtain ⟨l, -, h⟩ := bind_eq_ok.mp h
  cases h
  exact Plan.index_draw a.recipe (UInt64.ofNat i)

theorem exists_numbered (hword : a.recipe.val.sampleLength < 2 ^ 64) (hp : a.policy.Finite)
    (ho : a.policy.Orderly) (i : ℕ) : ∃ s, a.numbered i = .ok s := by
  have hstart := (Plan.draw_fits a.recipe (UInt64.ofNat i)).start.inRange
  apply a.exists_sample hword hstart
  intro t streams ht
  obtain ⟨t', streams', ht', hfollows⟩ := a.trace_spec hword hstart
  obtain ⟨rfl, rfl⟩ := Prod.mk.inj (Except.ok.inj (ht'.symm.trans ht))
  obtain ⟨l, hl, -⟩ := a.label_spec hp ho hfollows streams'.1
  exact ⟨l, hl⟩

/-! ## Filling -/

def addAll (p : Production) (timed : List (Sample Float × Float)) : Production :=
  timed.foldl (fun p w => p.add a.recipe.val.sampleCount (a.plan w.1.index) w.1 w.2) p

theorem pool_addAll (p : Production) (timed : List (Sample Float × Float)) :
    (a.addAll p timed).pool = p.pool ++ (timed.map Prod.fst).toArray := by
  induction timed generalizing p with
  | nil => simp [addAll]
  | cons w rest ih =>
      rw [addAll, List.foldl_cons, ← addAll, ih]
      simp [Production.add]

theorem fill_eq_addAll {m : Type → Type} [Monad m] [LawfulMonad m] (clock : m Float) {count : ℕ}
    {p : Production} {samples : List (Sample Float)}
    (h : (List.range' p.pool.size count).map a.numbered = samples.map .ok) :
    ∃ run : m {seconds : List Float // seconds.length = samples.length},
      a.fill clock count p = (fun seconds => .ok (a.addAll p (samples.zip seconds.val))) <$> run := by
  induction count generalizing p samples with
  | zero =>
      obtain rfl : samples = [] := by simpa using h.symm
      exact ⟨pure ⟨[], rfl⟩, by simp [fill, addAll]⟩
  | succ count ih =>
      rw [List.range'_succ, List.map_cons] at h
      obtain ⟨s, rest, rfl, hs, hrest⟩ := List.map_eq_cons_iff.mp h.symm
      have hindex : s.index = UInt64.ofNat p.pool.size := a.index_numbered hs.symm
      have hsample : a.sample (a.plan (UInt64.ofNat p.pool.size)) = .ok s := hs.symm
      have hnext (seconds : Float) : (List.range' (p.add a.recipe.val.sampleCount
          (a.plan (UInt64.ofNat p.pool.size)) s seconds).pool.size count).map a.numbered =
            rest.map .ok := by
        simpa [Production.add] using hrest.symm
      choose run hrun using fun seconds => ih (hnext seconds)
      -- The run of the clock alone: two readings for this sample, then those for the rest.
      refine ⟨do
        let begun ← clock
        let done ← clock
        let later ← run (done - begun)
        pure ⟨(done - begun) :: later.val, by rw [List.length_cons, List.length_cons, later.property]⟩, ?_⟩
      simp only [fill, hsample, hrun, map_bind, map_pure]
      simp [addAll, hindex]

theorem exists_numbered_of_fill {clock : Id Float} {count : ℕ} {p q : Production}
    (h : a.fill clock count p = Except.ok q) :
    ∀ i ∈ List.range' p.pool.size count, ∃ s, a.numbered i = .ok s := by
  induction count generalizing p with
  | zero => exact nofun
  | succ count ih =>
      cases hsample : a.sample (a.plan (UInt64.ofNat p.pool.size)) with
      | error fault =>
          simp only [fill, hsample] at h
          cases h
      | ok s =>
          simp only [fill, hsample] at h
          intro i hi
          rcases List.mem_cons.mp hi with rfl | hrest
          · exact ⟨s, hsample⟩
          · apply ih h
            simpa [Production.add] using hrest

/-! ## Producing -/

def dealt (samples : List (Sample Float)) : Dataset Float :=
  Dataset.deal samples.toArray a.recipe.val.seed a.recipe.val.sampleLength a.recipe.val.mode

theorem dealt_congr {a b : Assembly} (hseed : b.recipe.val.seed = a.recipe.val.seed)
    (hlength : b.recipe.val.sampleLength = a.recipe.val.sampleLength)
    (hmode : b.recipe.val.mode = a.recipe.val.mode) (samples : List (Sample Float)) :
    b.dealt samples = a.dealt samples := by
  rw [dealt, dealt, hseed, hlength, hmode]

theorem produce_eq_finish {m : Type → Type} [Monad m] [LawfulMonad m] (clock : m Float)
    (observed : Observation) {samples : List (Sample Float)}
    (h : (List.range a.recipe.val.sampleCount).map a.numbered = samples.map .ok) :
    ∃ run : m {seconds : List Float // seconds.length = samples.length},
      a.produce clock observed = (fun seconds => .ok (a.finish
        (a.addAll ⟨#[], observed.note (.generating a.recipe.val)⟩ (samples.zip seconds.val)))) <$> run := by
  rw [List.range_eq_range'] at h
  obtain ⟨run, hrun⟩ := a.fill_eq_addAll clock (p := ⟨#[], observed.note (.generating a.recipe.val)⟩) h
  refine ⟨run, ?_⟩
  simp only [produce, hrun, bind_map_left]
  exact bind_pure_comp _ _

theorem finish_addAll {samples : List (Sample Float)} (observed : Observation) {seconds : List Float}
    (h : seconds.length = samples.length) :
    (a.finish (a.addAll ⟨#[], observed⟩ (samples.zip seconds))).1 = a.dealt samples := by
  simp [finish, dealt, pool_addAll, List.map_fst_zip h.ge]

/-- Production deals the samples that are planned, and what can be said of the observation whatever the clock
showed is said of the one it ends with. -/
theorem produce_keeping {m : Type → Type} [Monad m] [LawfulMonad m] (clock : m Float)
    (observed : Observation) {samples : List (Sample Float)}
    (h : (List.range a.recipe.val.sampleCount).map a.numbered = samples.map .ok) {P : Observation → Prop}
    (hkept : ∀ seconds : List Float, seconds.length = samples.length → P (a.finish
      (a.addAll ⟨#[], observed.note (.generating a.recipe.val)⟩ (samples.zip seconds))).2) :
    ∃ run : m {o : Observation // P o},
      a.produce clock observed = (fun o => .ok (a.dealt samples, o.val)) <$> run := by
  obtain ⟨run, hrun⟩ := a.produce_eq_finish clock observed h
  refine ⟨(fun seconds => ⟨_, hkept seconds.val seconds.property⟩) <$> run, ?_⟩
  rw [hrun, Functor.map_map]
  congr 1
  funext seconds
  exact congrArg Except.ok (Prod.ext (a.finish_addAll _ seconds.property) rfl)

theorem produce_eq_map {m : Type → Type} [Monad m] [LawfulMonad m] (clock : m Float)
    (observed : Observation) {samples : List (Sample Float)}
    (h : (List.range a.recipe.val.sampleCount).map a.numbered = samples.map .ok) :
    ∃ run : m Observation, a.produce clock observed = (fun o => .ok (a.dealt samples, o)) <$> run := by
  obtain ⟨run, hrun⟩ := a.produce_keeping clock observed h (P := fun _ => True) fun _ _ => trivial
  exact ⟨Subtype.val <$> run, by rw [hrun, Functor.map_map]⟩

theorem dataset_of_samples (observed : Observation) {samples : List (Sample Float)}
    (h : (List.range a.recipe.val.sampleCount).map a.numbered = samples.map .ok) :
    ∃ o, a.dataset observed = .ok (a.dealt samples, o) := by
  obtain ⟨run, hrun⟩ := a.produce_eq_map (pure 0.0 : Id Float) observed h
  exact ⟨Id.run run, hrun⟩

theorem exists_dataset (hword : a.recipe.val.sampleLength < 2 ^ 64) (hp : a.policy.Finite)
    (ho : a.policy.Orderly) (observed : Observation) : ∃ samples o,
      (List.range a.recipe.val.sampleCount).map a.numbered = samples.map .ok ∧
        a.dataset observed = .ok (a.dealt samples, o) := by
  obtain ⟨samples, hsamples⟩ := exists_map_ok fun i (_ : i ∈ List.range a.recipe.val.sampleCount) =>
    a.exists_numbered hword hp ho i
  obtain ⟨o, hdataset⟩ := a.dataset_of_samples observed hsamples
  exact ⟨samples, o, hsamples, hdataset⟩

theorem samples_of_dataset {observed o : Observation} {d : Dataset Float}
    (h : a.dataset observed = .ok (d, o)) :
    ∃ samples : List (Sample Float),
      (List.range a.recipe.val.sampleCount).map a.numbered = samples.map .ok ∧ d = a.dealt samples := by
  have hall : ∀ i ∈ List.range a.recipe.val.sampleCount, ∃ s, a.numbered i = .ok s := by
    rw [List.range_eq_range']
    cases hfill : a.fill (pure 0.0 : Id Float) a.recipe.val.sampleCount
        ⟨#[], observed.note (.generating a.recipe.val)⟩ with
    | error fault =>
        simp only [dataset, produce, hfill] at h
        cases h
    | ok q => exact a.exists_numbered_of_fill hfill
  obtain ⟨samples, hsamples⟩ := exists_map_ok hall
  obtain ⟨o', ho'⟩ := a.dataset_of_samples observed hsamples
  obtain ⟨rfl, -⟩ := Prod.mk.inj (Except.ok.inj (h.symm.trans ho'))
  exact ⟨samples, hsamples, rfl⟩

/-! ## The partition -/

section Numbered

variable {samples : List (Sample Float)} {indices : List ℕ}

theorem length_of_numbered (h : indices.map a.numbered = samples.map .ok) : samples.length = indices.length := by
  have hlength := congrArg List.length h
  rw [List.length_map, List.length_map] at hlength
  exact hlength.symm

theorem sample_of_mem (h : indices.map a.numbered = samples.map .ok) {s : Sample Float} (hs : s ∈ samples) :
    a.sample (a.plan s.index) = .ok s := by
  have hplanned : Except.ok s ∈ indices.map a.numbered := by
    rw [h]
    exact List.mem_map_of_mem hs
  obtain ⟨i, -, hi⟩ := List.mem_map.mp hplanned
  rw [a.index_numbered hi]
  exact hi

theorem sample_of_mem_dealt (h : indices.map a.numbered = samples.map .ok) {s : Sample Float}
    (hs : s ∈ (a.dealt samples).samples) : a.sample (a.plan s.index) = .ok s :=
  a.sample_of_mem h ((Dataset.samples_deal_perm _ _ _ _).mem_iff.mp hs)

end Numbered

theorem map_index_eq {samples : List (Sample Float)} {indices : List ℕ}
    (h : indices.map a.numbered = samples.map .ok) :
    samples.map (·.index) = indices.map UInt64.ofNat := by
  induction indices generalizing samples with
  | nil =>
      obtain rfl : samples = [] := by simpa using h.symm
      rfl
  | cons i indices ih =>
      obtain ⟨s, rest, rfl, hs, hrest⟩ := List.map_eq_cons_iff.mp h.symm
      rw [List.map_cons, List.map_cons, ih hrest.symm, a.index_numbered hs.symm]

theorem nodup_map_ofNat {n : ℕ} (h : n ≤ 2 ^ 64) : ((List.range n).map UInt64.ofNat).Nodup := by
  apply List.nodup_range.map_on
  intro i hi j hj hij
  have hi := List.mem_range.mp hi
  have hj := List.mem_range.mp hj
  have heq := congrArg UInt64.toNat hij
  rwa [UInt64.toNat_ofNat_of_lt' (hi.trans_le h), UInt64.toNat_ofNat_of_lt' (hj.trans_le h)] at heq

/-- A sample depends on the recipe and its index, and not on how many samples there are. -/
theorem sample_plan_congr {b : Assembly} (hpolicy : b.policy = a.policy)
    (hrecipe : b.recipe.val = { a.recipe.val with sampleCount := b.recipe.val.sampleCount })
    (index : UInt64) : b.sample (b.plan index) = a.sample (a.plan index) := by
  have hlength : b.recipe.val.sampleLength = a.recipe.val.sampleLength := by
    rw [hrecipe]
    rfl
  rw [plan_congr (a := a) (by rw [hrecipe]) (by rw [hrecipe]) (by rw [hrecipe]) (by rw [hrecipe]),
    sample_congr (by rw [hrecipe]) hlength (by rw [hrecipe]) (by rw [hrecipe]) hpolicy]

/-- A checked recipe and a policy that can label the planned samples give a dataset.  It is a partition of
the pool of planned samples, each index in it once, and its parts have the sizes of the bounds.  The order
is that of the seed and the size: dealing commutes with every function of the samples.  A dataset of
another size has the same sample wherever it has the same index. -/
theorem dataset_partitions_pool (hlength : a.recipe.val.traceLength < 2 ^ 64)
    (hcount : 9 * a.recipe.val.sampleCount < 2 ^ 64)
    (hlabel : ∀ i < a.recipe.val.sampleCount, ∀ t streams,
      a.trace (a.plan (UInt64.ofNat i)) = .ok (t, streams) →
        ∃ l, a.label (a.plan (UInt64.ofNat i)) t streams.1 = .ok l)
    (observed : Observation) :
    let n := a.recipe.val.sampleCount
    ∃ d o, a.dataset observed = .ok (d, o) ∧
      (d.samples.map Except.ok).Perm
        ((List.range n).map fun i => a.sample (a.plan (UInt64.ofNat i))) ∧
      (∀ i < n, (d.samples.map (·.index)).count (UInt64.ofNat i) = 1) ∧
      (d.train.length = 8 * n / 10 ∧ d.validation.length = 9 * n / 10 - 8 * n / 10 ∧
        d.test.length = n - 9 * n / 10) ∧
      (∀ (α β : Type) (f : Sample α → Sample β) (pool : Array (Sample α)) (seed : UInt64) (length : ℕ)
        (mode : Mode), Dataset.deal (pool.map f) seed length mode =
          (Dataset.deal pool seed length mode).map f) ∧
      ∀ (b : Assembly) (observed' o' : Observation) (d' : Dataset Float), b.policy = a.policy →
        b.recipe.val = { a.recipe.val with sampleCount := b.recipe.val.sampleCount } →
        b.dataset observed' = .ok (d', o') →
          ∀ s ∈ d.samples, ∀ s' ∈ d'.samples, s.index = s'.index → s = s' := by
  intro n
  have hall : ∀ i ∈ List.range n, ∃ s, a.numbered i = .ok s := by
    intro i hi
    exact a.exists_sample (a.recipe.val.sampleLength_lt hlength)
      (Plan.draw_fits a.recipe (UInt64.ofNat i)).start.inRange (hlabel i (List.mem_range.mp hi))
  obtain ⟨samples, hsamples⟩ := exists_map_ok hall
  obtain ⟨o, ho⟩ := a.dataset_of_samples observed hsamples
  have hperm : (a.dealt samples).samples.Perm samples := Dataset.samples_deal_perm _ _ _ _
  have hsize : samples.length = n := (a.length_of_numbered hsamples).trans List.length_range
  refine ⟨a.dealt samples, o, ho, ?_, ?_, ?_, fun _ _ f pool seed length mode =>
    Dataset.deal_map length mode seed f pool, ?_⟩
  · exact (hperm.map Except.ok).trans (List.Perm.of_eq hsamples.symm)
  · intro i hi
    have hindices : ((a.dealt samples).samples.map (·.index)).Perm ((List.range n).map UInt64.ofNat) :=
      (hperm.map _).trans (List.Perm.of_eq (a.map_index_eq hsamples))
    rw [hindices.count_eq]
    exact List.count_eq_one_of_mem (nodup_map_ofNat (by omega))
      (List.mem_map_of_mem (List.mem_range.mpr hi))
  · have hlengths := Dataset.length_deal a.recipe.val.sampleLength a.recipe.val.mode a.recipe.val.seed
      samples.toArray
    rwa [List.size_toArray, hsize] at hlengths
  · intro b observed' o' d' hpolicy hrecipe hb s hs s' hs' hindex
    obtain ⟨samples', hsamples', rfl⟩ := b.samples_of_dataset hb
    have hmade := a.sample_of_mem_dealt hsamples hs
    have hmade' := b.sample_of_mem_dealt hsamples' hs'
    rw [a.sample_plan_congr hpolicy hrecipe, ← hindex, hmade] at hmade'
    exact Except.ok.inj hmade'

theorem dataset_of_twelve :
    let r : Recipe := { Recipe.standard with sampleCount := 12 }
    r.traceLength < 2 ^ 64 ∧ 9 * r.sampleCount < 2 ^ 64 ∧ ∃ h : r.Valid,
      let a : Assembly := ⟨⟨r, h⟩, .standard⟩
      ∃ d o, a.dataset .none = .ok (d, o) ∧ (d.samples.map (·.index)).count 11 = 1 ∧
        d.train.length = 9 ∧ d.validation.length = 1 ∧ d.test.length = 2 := by
  intro r
  have hvalid : r.Valid := Recipe.valid_of_fault?_eq_none (by decide)
  have hlength : r.traceLength < 2 ^ 64 := by decide
  have hcount : 9 * r.sampleCount < 2 ^ 64 := by decide
  refine ⟨hlength, hcount, hvalid, ?_⟩
  intro a
  have hlabel : ∀ i < r.sampleCount, ∀ t streams, a.trace (a.plan (UInt64.ofNat i)) = .ok (t, streams) →
      ∃ l, a.label (a.plan (UInt64.ofNat i)) t streams.1 = .ok l := by
    intro i _ t streams ht
    obtain ⟨t', streams', ht', hfollows⟩ := a.trace_spec (r.sampleLength_lt hlength)
      (Plan.draw_fits ⟨r, hvalid⟩ (UInt64.ofNat i)).start.inRange
    obtain ⟨rfl, rfl⟩ := Prod.mk.inj (Except.ok.inj (ht'.symm.trans ht))
    obtain ⟨l, hl, -⟩ := a.label_spec SizingPolicy.standard_finite SizingPolicy.standard_orderly hfollows
      streams'.1
    exact ⟨l, hl⟩
  obtain ⟨d, o, hd, -, honce, ⟨htrain, hvalidation, htest⟩, -⟩ :=
    a.dataset_partitions_pool hlength hcount hlabel .none
  have hsize : a.recipe.val.sampleCount = 12 := rfl
  rw [hsize] at honce htrain hvalidation htest
  exact ⟨d, o, hd, honce 11 (by norm_num), htrain, hvalidation, htest⟩

end Assembly

end WorkloadSynth
