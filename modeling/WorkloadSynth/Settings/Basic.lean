import WorkloadSynth.Dataset.Recipe
import WorkloadSynth.Settings.Layer

/-!
Settings of a run, and the recipe they come to.

`Settings.ofEntries` takes each setting from entries by its name, or else what is standard.
`Overrides.apply` puts the command line on top.  `Settings.recipe`
resolves the names: an empty list stands for everything, blank names do not count, and a name that
is given twice counts once.
-/

set_option autoImplicit false

namespace WorkloadSynth

structure Settings where
  sampleCount : Nat
  traceLength : Nat
  anomalyRatio : Float
  seed : UInt64
  stepHours : Float
  mode : String
  archetypes : List String
  anomalies : List String
  output : Path

structure Overrides where
  sampleCount : Option Nat
  traceLength : Option Nat
  anomalyRatio : Option Float
  seed : Option UInt64
  stepHours : Option Float
  mode : Option String
  archetypes : Option (List String)
  anomalies : Option (List String)
  output : Option Path

namespace Overrides

def empty : Overrides := ⟨none, none, none, none, none, none, none, none, none⟩

def apply (o : Overrides) (s : Settings) : Settings where
  sampleCount := o.sampleCount.getD s.sampleCount
  traceLength := o.traceLength.getD s.traceLength
  anomalyRatio := o.anomalyRatio.getD s.anomalyRatio
  seed := o.seed.getD s.seed
  stepHours := o.stepHours.getD s.stepHours
  mode := o.mode.getD s.mode
  archetypes := o.archetypes.getD s.archetypes
  anomalies := o.anomalies.getD s.anomalies
  output := o.output.getD s.output

end Overrides

namespace Settings

def standard : Settings where
  sampleCount := Recipe.standard.sampleCount
  traceLength := Recipe.standard.traceLength
  anomalyRatio := Recipe.standard.anomalyRatio
  seed := Recipe.standard.seed
  stepHours := Recipe.standard.stepHours
  mode := Recipe.standard.mode.name
  archetypes := []
  anomalies := []
  output := ⟨"data/training_data.npz"⟩

def lookup {α : Type} (entries : Entries) (key : String)
    (convert : Setting → String → Except SettingFault α) (default : α) : Except SettingFault α :=
  match entries.find? key with
  | some s => convert s key
  | none => .ok default

def ofEntries (entries : Entries) : Except SettingFault Settings := do
  let sampleCount ← lookup entries "num_samples" Setting.toNatural standard.sampleCount
  let traceLength ← lookup entries "seq_len" Setting.toNatural standard.traceLength
  let anomalyRatio ← lookup entries "anomaly_ratio" Setting.toFloat standard.anomalyRatio
  let seed ← lookup entries "seed" Setting.toNatural standard.seed.toNat
  let stepHours ← lookup entries "step_hours" Setting.toFloat standard.stepHours
  let mode ← lookup entries "mode" Setting.toText standard.mode
  let archetypes ← lookup entries "archetypes" Setting.toTexts standard.archetypes
  let anomalies ← lookup entries "anomaly_kinds" Setting.toTexts standard.anomalies
  let output ← lookup entries "output" Setting.toText standard.output.text
  pure
    { sampleCount, traceLength, anomalyRatio, seed := UInt64.ofNat seed, stepHours, mode,
      archetypes, anomalies, output := ⟨output⟩ }

/-- The values that names stand for, in order of first mention; blank names are passed over. -/
def resolve {α : Type} [DecidableEq α] (parse : String → Except RecipeFault α)
    (names : List String) : Except RecipeFault (List α) := do
  let values ← (names.filter fun n => !Text.isBlankText n).mapM parse
  pure values.eraseDups

/-- The same, an empty list standing for everything. -/
def resolveOr {α : Type} [DecidableEq α] (all : List α) (parse : String → Except RecipeFault α)
    (names : List String) : Except RecipeFault (List α) :=
  if names.isEmpty then .ok all else resolve parse names

def recipe (s : Settings) : Except RecipeFault CheckedRecipe := do
  let archetypes ← resolveOr Archetype.all Archetype.parse s.archetypes
  let anomalies ← resolveOr Anomaly.all Anomaly.parse s.anomalies
  let mode ← Mode.parse s.mode
  Recipe.check
    { sampleCount := s.sampleCount
      traceLength := s.traceLength
      anomalyRatio := s.anomalyRatio
      seed := s.seed
      stepHours := s.stepHours
      mode
      archetypes
      anomalies }

end Settings

end WorkloadSynth
