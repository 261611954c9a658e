import WorkloadSynth.Dataset.Digest
import WorkloadSynth.Proofs.Stats.Tally

/-!
# The columns and counts of a digest

The statistics of all columns are brought up to date row by row.  Each column sees its own entry of every
row and nothing else, so it ends up with the statistics of these entries in the order of the rows.  The
tallies count how often each name occurs among the samples.
-/

set_option autoImplicit false

namespace WorkloadSynth

open Stats (Running)

variable {α : Type} [Scalar α]

namespace Dataset

theorem getElem?_pushRow {columns : List (Running α)} {row : List α} (h : columns.length ≤ row.length)
    (f : Nat) : (pushRow columns row)[f]? =
      columns[f]?.map fun r => row[f]?.toList.foldl (fun r v => r.push (Scalar.narrow v)) r := by
  rw [pushRow, List.getElem?_zipWith]
  cases hr : columns[f]? with
  | none => rfl
  | some r =>
      have hf : f < row.length := Nat.lt_of_lt_of_le (List.getElem?_eq_some_iff.mp hr).1 h
      rw [List.getElem?_eq_getElem hf]
      rfl

theorem length_pushRow {columns : List (Running α)} {row : List α} (h : columns.length ≤ row.length) :
    (pushRow columns row).length = columns.length := by
  rw [pushRow, List.length_zipWith, Nat.min_eq_left h]

theorem getElem?_foldl_pushRow {rows : List (List α)} {columns : List (Running α)}
    (h : ∀ row ∈ rows, columns.length ≤ row.length) (f : Nat) :
    (rows.foldl pushRow columns)[f]? = columns[f]?.map fun r =>
      (rows.filterMap (·[f]?)).foldl (fun r v => r.push (Scalar.narrow v)) r := by
  induction rows generalizing columns with
  | nil => simp
  | cons row rest ih =>
      have hrow := h row List.mem_cons_self
      have hrest : ∀ other ∈ rest, (pushRow columns row).length ≤ other.length := by
        intro other hother
        rw [length_pushRow hrow]
        exact h other (List.mem_cons_of_mem row hother)
      rw [List.foldl_cons, ih hrest, getElem?_pushRow hrow, Option.map_map, List.filterMap_cons]
      congr 1
      funext r
      cases row[f]? <;> rfl

theorem getElem?_foldl_empty {rows : List (List α)} {names : List String}
    (h : ∀ row ∈ rows, row.length = names.length) {f : Nat} (hf : f < names.length) :
    (rows.foldl pushRow (names.map fun _ => Running.empty))[f]? =
      some (Running.ofList ((rows.filterMap (·[f]?)).map Scalar.narrow)) := by
  have hwidth : ∀ row ∈ rows, (names.map fun _ => (Running.empty : Running α)).length ≤ row.length := by
    intro row hrow
    rw [List.length_map]
    exact Nat.le_of_eq (h row hrow).symm
  rw [getElem?_foldl_pushRow hwidth, List.getElem?_map, List.getElem?_eq_getElem hf, Running.ofList,
    List.foldl_map]
  rfl

theorem foldl_pushRow_empty {rows : List (List α)} {names : List String}
    (h : ∀ row ∈ rows, row.length = names.length) :
    rows.foldl pushRow (names.map fun _ => Running.empty) =
      (List.range names.length).map fun f =>
        Running.ofList ((rows.filterMap (·[f]?)).map Scalar.narrow) := by
  refine List.ext_getElem? fun f => ?_
  by_cases hf : f < names.length
  · rw [getElem?_foldl_empty h hf, List.getElem?_map, List.getElem?_range hf]
    rfl
  · have hwidth : ∀ row ∈ rows, (names.map fun _ => (Running.empty : Running α)).length ≤ row.length := by
      intro row hrow
      rw [List.length_map, h row hrow]
    rw [getElem?_foldl_pushRow hwidth, List.getElem?_eq_none (by rw [List.length_map]; omega),
      List.getElem?_eq_none (by rw [List.length_map, List.length_range]; omega)]
    rfl

variable (d : Dataset α)

def usageRows : List (List α) := (d.samples.flatMap (·.trace.steps)).map Usage.toList

omit [Scalar α] in
theorem length_of_mem_usageRows : ∀ row ∈ d.usageRows, row.length = Usage.columnNames.length := by
  intro row hrow
  obtain ⟨u, -, rfl⟩ := List.mem_map.mp hrow
  exact u.length_toList

theorem usageColumns_eq :
    d.usageColumns = d.usageRows.foldl pushRow (Usage.columnNames.map fun _ => Running.empty) := by
  rw [usageRows, List.foldl_map, List.foldl_flatMap]
  rfl

theorem usageColumns_getElem? {f : Nat} (hf : f < Usage.columnNames.length) :
    d.usageColumns[f]? = some (Running.ofList
      ((((d.samples.flatMap (·.trace.steps)).map Usage.toList).filterMap (·[f]?)).map Scalar.narrow)) := by
  rw [usageColumns_eq, getElem?_foldl_empty d.length_of_mem_usageRows hf]
  rfl

def labelRows : List (List α) := d.samples.map (·.label.toList)

omit [Scalar α] in
theorem length_of_mem_labelRows :
    ∀ row ∈ d.labelRows, row.length = Recommendation.columnNames.length := by
  intro row hrow
  obtain ⟨s, -, rfl⟩ := List.mem_map.mp hrow
  exact s.label.length_toList

theorem labelColumns_eq :
    d.labelColumns = d.labelRows.foldl pushRow (Recommendation.columnNames.map fun _ => Running.empty) := by
  rw [labelRows, List.foldl_map]
  rfl

theorem labelColumns_getElem? {f : Nat} (hf : f < Recommendation.columnNames.length) :
    d.labelColumns[f]? = some (Running.ofList
      (((d.samples.map (·.label.toList)).filterMap (·[f]?)).map Scalar.narrow)) := by
  rw [labelColumns_eq, getElem?_foldl_empty d.length_of_mem_labelRows hf]
  rfl

/-! ## Counts -/

omit [Scalar α] in
theorem archetypeTally_eq :
    d.archetypeTally = (d.samples.map (·.trace.archetype.name)).foldl Tally.add [] := by
  rw [archetypeTally, List.foldl_map]

omit [Scalar α] in
theorem archetypeTally_count (name : String) :
    d.archetypeTally.count name = (d.samples.map (·.trace.archetype.name)).count name := by
  rw [archetypeTally_eq, Tally.count_foldl_add Tally.ordered_nil]
  exact Nat.zero_add _

end Dataset

def Sample.anomalyName? (s : Sample α) : Option String := s.trace.episode.map fun e => e.anomaly.name

omit [Scalar α] in
theorem Dataset.anomalyTally_eq (d : Dataset α) :
    d.anomalyTally = (d.samples.filterMap Sample.anomalyName?).foldl Tally.add [] := by
  rw [List.foldl_filterMap, anomalyTally]
  congr 1
  funext t s
  rw [Sample.anomalyName?]
  cases s.trace.episode <;> rfl

omit [Scalar α] in
theorem Dataset.anomalyTally_count (d : Dataset α) (name : String) :
    d.anomalyTally.count name = (d.samples.filterMap Sample.anomalyName?).count name := by
  rw [anomalyTally_eq, Tally.count_foldl_add Tally.ordered_nil]
  exact Nat.zero_add _

end WorkloadSynth
