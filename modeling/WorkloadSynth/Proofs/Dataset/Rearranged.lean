import WorkloadSynth.Proofs.Workload.Exact
import WorkloadSynth.Proofs.Binary64.Identity
import WorkloadSynth.Proofs.Dataset.Counters
import WorkloadSynth.Proofs.Stats.Moments

/-!
# What a digest counts

A digest goes through the samples of a dataset in order, but what it keeps of them does not depend on the
order: how often each name occurs, and of every column the number of entries and the extremes.  Among doubles
the extreme that is kept may be either of the two zeros; in exact arithmetic a column keeps all its statistics
(`digest_counts_samples`).
-/

set_option autoImplicit false

namespace WorkloadSynth

open Stats (Running)

/-! ## Doubles as numbers -/

/-- Two doubles that are equal, and that are the same unless they are zeros. -/
structure Binary64.SameNumber (x y : Float) : Prop where
  equal : (x == y) = true
  same : x = y ∨ (x == 0.0) = true

theorem Binary64.sameNumber_of_le {x y : Float} (h : x ≤ y) (h' : y ≤ x) : SameNumber x y :=
  ⟨beq_of_le h h', eq_or_zero_of_le h h'⟩

/-! ## Columns of rearranged rows -/

namespace Stats

structure Column.SameRange (c c' : Column Float) : Prop where
  minimum : Binary64.SameNumber c.minimum c'.minimum
  maximum : Binary64.SameNumber c.maximum c'.maximum

namespace Running

structure SameSpan (r r' : Running Float) : Prop where
  count : r.count = r'.count
  least : Option.Rel Binary64.SameNumber r.least r'.least
  greatest : Option.Rel Binary64.SameNumber r.greatest r'.greatest

theorem sameSpan_of_perm {values order : List Float} (h : order.Perm values) :
    (ofList values).SameSpan (ofList order) where
  count := by rw [count_ofList, count_ofList, h.length_eq]
  least := (extreme_least values).unique (fun _ _ => Binary64.sameNumber_of_le)
    ((extreme_least order).perm h.symm)
  greatest := (extreme_greatest values).unique (fun _ _ hge hle => Binary64.sameNumber_of_le hle hge)
    ((extreme_greatest order).perm h.symm)

/-- Of the two zeros, which are equal, the first is kept. -/
example : (ofList [0.0, -0.0]).least = some 0.0 ∧ (ofList [-0.0, 0.0]).least ≠ some (0.0 : Float) := by
  decide

theorem SameSpan.summary {r r' : Running Float} (h : r.SameSpan r') : r.summary.SameRange r'.summary := by
  have getD {x : Float} (hx : (x == x) = true) {kept kept' : Option Float}
      (hkept : Option.Rel Binary64.SameNumber kept kept') :
      Binary64.SameNumber (kept.getD x) (kept'.getD x) := by
    cases hkept with
    | none => exact ⟨hx, .inl rfl⟩
    | some hmn => exact hmn
  unfold Running.summary
  rw [← h.count]
  split_ifs
  · exact ⟨⟨by decide, .inl rfl⟩, ⟨by decide, .inl rfl⟩⟩
  · exact ⟨getD (by decide) h.least, getD (by decide) h.greatest⟩

end Running

end Stats

namespace Dataset

variable {α : Type} [Scalar α] {d d' : Dataset α}

theorem forall₂_columns {S : Running α → Running α → Prop}
    (hS : ∀ {values order : List α}, order.Perm values → S (.ofList values) (.ofList order))
    {names : List String} {rows rows' : List (List α)} (h : ∀ row ∈ rows, row.length = names.length)
    (hperm : rows'.Perm rows) :
    List.Forall₂ S (rows.foldl pushRow (names.map fun _ => Running.empty))
      (rows'.foldl pushRow (names.map fun _ => Running.empty)) := by
  have h' : ∀ row ∈ rows', row.length = names.length := fun row hrow => h row (hperm.mem_iff.mp hrow)
  rw [foldl_pushRow_empty h, foldl_pushRow_empty h', List.forall₂_map_left_iff, List.forall₂_map_right_iff,
    List.forall₂_same]
  exact fun f _ => hS ((hperm.filterMap _).map _)

theorem forall₂_usageColumns {S : Running α → Running α → Prop}
    (hS : ∀ {values order : List α}, order.Perm values → S (.ofList values) (.ofList order))
    (h : d'.samples.Perm d.samples) : List.Forall₂ S d.usageColumns d'.usageColumns := by
  rw [usageColumns_eq, usageColumns_eq]
  exact forall₂_columns hS d.length_of_mem_usageRows ((h.flatMap_right _).map _)

theorem forall₂_labelColumns {S : Running α → Running α → Prop}
    (hS : ∀ {values order : List α}, order.Perm values → S (.ofList values) (.ofList order))
    (h : d'.samples.Perm d.samples) : List.Forall₂ S d.labelColumns d'.labelColumns := by
  rw [labelColumns_eq, labelColumns_eq]
  exact forall₂_columns hS d.length_of_mem_labelRows (h.map _)

end Dataset

structure NamedColumn.SameRange (c c' : NamedColumn) : Prop where
  name : c.name = c'.name
  column : c.column.SameRange c'.column

theorem Digest.forall₂_named (names : List String) {columns columns' : List (Running Float)}
    (h : List.Forall₂ Running.SameSpan columns columns') :
    List.Forall₂ NamedColumn.SameRange (named names columns) (named names columns') := by
  induction h generalizing names with
  | nil => simp [named]
  | cons hspan _ ih =>
      cases names with
      | nil => exact .nil
      | cons name rest => exact .cons ⟨rfl, hspan.summary⟩ (ih rest)

/-! ## Counts -/

theorem Archetype.name_injective : Function.Injective Archetype.name := by
  intro a b h
  cases a <;> cases b <;> first | rfl | exact absurd h (by decide)

theorem Anomaly.name_injective : Function.Injective Anomaly.name := by
  intro k l h
  cases k <;> cases l <;> first | rfl | exact absurd h (by decide)

namespace Dataset

variable {α : Type} (d : Dataset α)

theorem length_samples : d.samples.length = d.size := by
  rw [samples, List.length_append, List.length_append, size]

theorem archetypeTally_countsBy :
    d.archetypeTally.CountsBy Archetype.name fun a => d.samples.countP (·.trace.archetype = a) := by
  have h := Tally.countsBy_foldl_add Archetype.name_injective (d.samples.map (·.trace.archetype))
  rw [List.map_map, Function.comp_def, ← archetypeTally_eq] at h
  refine ⟨h.ordered, fun a => ?_, h.listed⟩
  rw [h.count, List.count_eq_countP, List.countP_map]
  rfl

theorem total_archetypeTally : d.archetypeTally.total = d.size := by
  rw [archetypeTally_eq, Tally.total_foldl_add, List.length_map, length_samples]
  exact Nat.zero_add _

def anomalies : List Anomaly := d.samples.filterMap fun s => s.trace.episode.map (·.anomaly)

theorem anomalyTally_eq_anomalies : d.anomalyTally = (d.anomalies.map Anomaly.name).foldl Tally.add [] := by
  rw [anomalyTally_eq, anomalies, List.map_filterMap]
  congr 2
  funext s
  rw [Sample.anomalyName?, Option.map_map]
  rfl

theorem anomalyTally_countsBy : d.anomalyTally.CountsBy Anomaly.name fun k =>
    d.samples.countP fun s => s.trace.episode.map (·.anomaly) = some k := by
  have h := Tally.countsBy_foldl_add Anomaly.name_injective d.anomalies
  rw [← anomalyTally_eq_anomalies] at h
  refine ⟨h.ordered, fun k => ?_, h.listed⟩
  rw [h.count, anomalies, List.count_filterMap]
  exact List.countP_congr fun s _ => by rw [beq_iff_eq, decide_eq_true_iff]

theorem total_anomalyTally : d.anomalyTally.total = d.samples.countP (·.trace.episode.isSome) := by
  rw [anomalyTally_eq_anomalies, Tally.total_foldl_add, List.length_map, anomalies,
    List.length_filterMap_eq_countP]
  simp [Tally.total]

variable {d} {d' : Dataset α} (h : d'.samples.Perm d.samples)

include h

theorem archetypeTally_perm : d'.archetypeTally = d.archetypeTally := by
  rw [archetypeTally_eq, archetypeTally_eq, Tally.foldl_add_perm (h.map _)]

theorem anomalyTally_perm : d'.anomalyTally = d.anomalyTally := by
  rw [anomalyTally_eq, anomalyTally_eq, Tally.foldl_add_perm (h.filterMap _)]

end Dataset

/-! ## Digests of rearranged samples -/

/-- Two digests with the same counts, and with the same ranges of all columns. -/
structure Digest.Agrees (g g' : Digest) : Prop where
  total : g.total = g'.total
  byArchetype : g.byArchetype = g'.byArchetype
  byAnomaly : g.byAnomaly = g'.byAnomaly
  anomalous : g.anomalous = g'.anomalous
  features : List.Forall₂ NamedColumn.SameRange g.features g'.features
  labels : List.Forall₂ NamedColumn.SameRange g.labels g'.labels

theorem Digest.agrees_of_perm {d d' : Dataset Float} (h : d'.samples.Perm d.samples) (r r' : Recipe)
    (generatedAt generatedAt' : Timestamp) :
    (ofDataset d r generatedAt).Agrees (ofDataset d' r' generatedAt') where
  total := by rw [total_ofDataset, total_ofDataset, h.length_eq]
  byArchetype := (Dataset.archetypeTally_perm h).symm
  byAnomaly := (Dataset.anomalyTally_perm h).symm
  anomalous := congrArg Tally.total (Dataset.anomalyTally_perm h).symm
  features := forall₂_named _ (Dataset.forall₂_usageColumns Running.sameSpan_of_perm h)
  labels := forall₂_named _ (Dataset.forall₂_labelColumns Running.sameSpan_of_perm h)

/-- The digest of a dataset counts under each archetype the samples of it, all of them together, and under
each anomaly the samples that carry it, together all that carry one; it lists nothing that does not occur.
However the samples are rearranged, within the parts or across them, the counts stay, and so do the count and
the extremes of every column, which are then equal and the same doubles unless they are zeros.  In exact
arithmetic everything that is kept of a column stays, its mean and its deviation too. -/
theorem digest_counts_samples (d : Dataset Float) (r : Recipe) (generatedAt : Timestamp) :
    let digest := Digest.ofDataset d r generatedAt
    (digest.total = d.size ∧ digest.byArchetype.total = digest.total ∧
      digest.byArchetype.CountsBy Archetype.name fun a => d.samples.countP (·.trace.archetype = a)) ∧
    (digest.anomalous = d.samples.countP (·.trace.episode.isSome) ∧
      digest.byAnomaly.total = digest.anomalous ∧
      digest.byAnomaly.CountsBy Anomaly.name fun k =>
        d.samples.countP fun s => s.trace.episode.map (·.anomaly) = some k) ∧
    (∀ (d' : Dataset Float) (r' : Recipe) (generatedAt' : Timestamp), d'.samples.Perm d.samples →
      digest.Agrees (.ofDataset d' r' generatedAt') ∧
        List.Forall₂ Running.SameSpan d.usageColumns d'.usageColumns ∧
        List.Forall₂ Running.SameSpan d.labelColumns d'.labelColumns) ∧
    ∀ (K : Type) [Field K] [LinearOrder K] [IsStrictOrderedRing K] [ElementaryFunctions K]
      (e e' : Dataset K), e'.samples.Perm e.samples →
        e'.usageColumns = e.usageColumns ∧ e'.labelColumns = e.labelColumns := by
  intro digest
  have htotal : digest.total = d.size := (Digest.total_ofDataset d r generatedAt).trans d.length_samples
  refine ⟨⟨htotal, d.total_archetypeTally.trans htotal.symm, d.archetypeTally_countsBy⟩,
    ⟨d.total_anomalyTally, rfl, d.anomalyTally_countsBy⟩, ?_, ?_⟩
  · intro d' r' generatedAt' h
    exact ⟨Digest.agrees_of_perm h r r' generatedAt generatedAt',
      Dataset.forall₂_usageColumns Running.sameSpan_of_perm h,
      Dataset.forall₂_labelColumns Running.sameSpan_of_perm h⟩
  · intro K _ _ _ _ e e' h
    have hsame : ∀ {values order : List K}, order.Perm values →
        Running.ofList values = Running.ofList order := fun hperm => (Running.ofList_perm hperm).symm
    have husage := Dataset.forall₂_usageColumns hsame h
    have hlabel := Dataset.forall₂_labelColumns hsame h
    rw [List.forall₂_eq_eq_eq] at husage hlabel
    exact ⟨husage.symm, hlabel.symm⟩

def Sample.constant {α : Type} (a : Archetype) (episode : Option Episode) (length : Nat) (x : α) :
    Sample α where
  index := 0
  trace := ⟨a, ⟨x, x, x⟩, episode, List.replicate length ⟨⟨x, x, x⟩, ⟨x, x, x⟩, x, x, x, x, x, x⟩⟩
  label := ⟨⟨x, x⟩, ⟨x, x⟩, x⟩

theorem digest_of_two_samples :
    let s : Sample Float := .constant .web none 3 0.25
    let t : Sample Float := .constant .cron (some ⟨.cpuSpike, 1⟩) 2 0.75
    let d : Dataset Float := ⟨.sequence, 3, [s], [], [t]⟩
    let d' : Dataset Float := ⟨.sequence, 3, [], [t, s], []⟩
    let digest := Digest.ofDataset d .standard ⟨0, 0⟩
    let u (x : ℝ) : Sample ℝ := .constant .batch none 1 x
    let e : Dataset ℝ := ⟨.flat, 1, [u 2], [u 3], [u 7]⟩
    let e' : Dataset ℝ := ⟨.flat, 1, [u 7, u 3], [], [u 2]⟩
    letI : ElementaryFunctions ℝ := realFunctions
    d'.samples.Perm d.samples ∧ digest.total = 2 ∧ digest.byArchetype.count "web" = 1 ∧
      digest.byArchetype.count "batch" = 0 ∧ digest.anomalous = 1 ∧ digest.byAnomaly.count "cpu_spike" = 1 ∧
      digest.Agrees (.ofDataset d' .standard ⟨0, 0⟩) ∧
      e'.samples.Perm e.samples ∧ e'.usageColumns = e.usageColumns ∧ e'.labelColumns = e.labelColumns := by
  intro s t d d' digest u e e'
  let _ : ElementaryFunctions ℝ := realFunctions
  have hperm : d'.samples.Perm d.samples := .swap s t []
  have hreal : e'.samples.Perm e.samples := List.reverse_perm [u 2, u 3, u 7]
  obtain ⟨⟨htotal, -, harchetype⟩, ⟨hanomalous, -, hanomaly⟩, hrearranged, hexact⟩ :=
    digest_counts_samples d .standard ⟨0, 0⟩
  obtain ⟨husage, hlabel⟩ := hexact ℝ e e' hreal
  exact ⟨hperm, htotal, harchetype.count .web, harchetype.count .batch, hanomalous, hanomaly.count .cpuSpike,
    (hrearranged d' .standard ⟨0, 0⟩ hperm).1, hreal, husage, hlabel⟩

end WorkloadSynth
