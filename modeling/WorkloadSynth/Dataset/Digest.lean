import WorkloadSynth.Dataset.Split
import WorkloadSynth.Report.Timestamp
import WorkloadSynth.Stats.Running
import WorkloadSynth.Stats.Tally

/-!
The digest of a dataset: how many samples of which sort, and the statistics of every column as the
arrays store it, that is in single precision.
-/

set_option autoImplicit false

namespace WorkloadSynth

namespace Dataset

variable {α : Type} [Scalar α]

open Stats (Running)

/-- Pushes a row of values, each to its column, in the precision of the arrays. -/
def pushRow (columns : List (Running α)) (row : List α) : List (Running α) :=
  columns.zipWith (fun r v => r.push (Scalar.narrow v)) row

def usageColumns (d : Dataset α) : List (Running α) :=
  d.samples.foldl
    (fun columns s => s.trace.steps.foldl (fun columns u => pushRow columns u.toList) columns)
    (Usage.columnNames.map fun _ => Running.empty)

def labelColumns (d : Dataset α) : List (Running α) :=
  d.samples.foldl (fun columns s => pushRow columns s.label.toList)
    (Recommendation.columnNames.map fun _ => Running.empty)

def archetypeTally (d : Dataset α) : Tally :=
  d.samples.foldl (fun t s => t.add s.trace.archetype.name) []

def anomalyTally (d : Dataset α) : Tally :=
  d.samples.foldl
    (fun t s => s.trace.episode.elim t fun e => t.add e.anomaly.name) []

end Dataset

structure NamedColumn where
  name : String
  column : Stats.Column Float
deriving DecidableEq

structure Digest where
  generatedAt : Timestamp
  mode : Mode
  length : Nat
  seed : UInt64
  anomalyRatio : Float
  stepHours : Float
  train : Nat
  validation : Nat
  test : Nat
  anomalous : Nat
  byArchetype : Tally
  byAnomaly : Tally
  features : List NamedColumn
  labels : List NamedColumn

namespace Digest

def total (d : Digest) : Nat := d.train + d.validation + d.test

def named (names : List String) (columns : List (Stats.Running Float)) : List NamedColumn :=
  names.zipWith (fun name r => ⟨name, r.summary⟩) columns

def ofDataset (d : Dataset Float) (recipe : Recipe) (generatedAt : Timestamp) : Digest where
  generatedAt := generatedAt
  mode := d.mode
  length := d.length
  seed := recipe.seed
  anomalyRatio := recipe.anomalyRatio
  stepHours := recipe.stepHours
  train := d.train.length
  validation := d.validation.length
  test := d.test.length
  anomalous := d.anomalyTally.total
  byArchetype := d.archetypeTally
  byAnomaly := d.anomalyTally
  features := named Usage.columnNames d.usageColumns
  labels := named Recommendation.columnNames d.labelColumns

end Digest

end WorkloadSynth
