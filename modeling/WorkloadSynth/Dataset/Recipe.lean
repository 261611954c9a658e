import WorkloadSynth.Decimal.Layout
import WorkloadSynth.Workload.Trace

/-!
Recipes: what a dataset is to be made of.

`Recipe.fault?` finds the first thing wrong with a recipe, and `Recipe.check` lets through those
with nothing wrong, as a `CheckedRecipe`.  `Recipe.Valid` says what that means without an order.
-/

set_option autoImplicit false

namespace WorkloadSynth

inductive Mode where
  | sequence
  | flat
deriving DecidableEq, Repr

namespace Mode

def name : Mode → String
  | sequence => "sequence"
  | flat => "flat"

/-- Reads a name; blanks around it and capital letters do not matter.  Whole traces go by a second
name, that of the network they are most often fed to. -/
def ofName? (text : String) : Option Mode :=
  let key := Text.lower (Text.trim text)
  if key = "sequence" ∨ key = "lstm" then some sequence
  else if key = "flat" then some flat
  else none

end Mode

structure Recipe where
  sampleCount : Nat
  /-- Steps of a trace; a single step has length one whatever this says. -/
  traceLength : Nat
  anomalyRatio : Float
  seed : UInt64
  stepHours : Float
  mode : Mode
  archetypes : List Archetype
  anomalies : List Anomaly
deriving DecidableEq

inductive RecipeFault where
  | sampleCount (given : Nat)
  | traceLength (given : Nat)
  | anomalyRatio (given : Float)
  | stepHours (given : Float)
  | noArchetypes
  | noAnomalies (ratio : Float)
  | unknownArchetype (text : String)
  | unknownAnomaly (text : String)
  | unknownMode (text : String)
deriving DecidableEq

def RecipeFault.message : RecipeFault → String
  | sampleCount n => "num_samples must be at least 1, got " ++ toString n
  | traceLength n => "seq_len must be at least 1, got " ++ toString n
  | anomalyRatio x => "anomaly_ratio must be within [0, 1], got " ++ Decimal.text x
  | stepHours x => "step_hours must be in (0, 168], got " ++ Decimal.text x
  | noArchetypes => "at least one workload archetype must be enabled"
  | noAnomalies x => "anomaly_ratio is " ++ Decimal.text x ++ " but no anomaly kinds are enabled"
  | unknownArchetype s => "unknown workload archetype '" ++ s ++
      "' (expected one of: web, batch, database, microservice, cron)"
  | unknownAnomaly s => "unknown anomaly kind '" ++ s ++
      "' (expected one of: memory_leak, cpu_spike, noisy)"
  | unknownMode s => "unknown generation mode '" ++ s ++ "' (expected one of: sequence, flat)"

def Archetype.parse (text : String) : Except RecipeFault Archetype :=
  match Archetype.ofName? text with
  | some a => .ok a
  | none => .error (.unknownArchetype text)

def Anomaly.parse (text : String) : Except RecipeFault Anomaly :=
  match Anomaly.ofName? text with
  | some a => .ok a
  | none => .error (.unknownAnomaly text)

def Mode.parse (text : String) : Except RecipeFault Mode :=
  match Mode.ofName? text with
  | some m => .ok m
  | none => .error (.unknownMode text)

namespace Recipe

def maxStepHours : Float := 168.0

def standard : Recipe where
  sampleCount := 100000
  traceLength := 10
  anomalyRatio := 0.1
  seed := 42
  stepHours := TraceModel.defaultStepHours
  mode := .sequence
  archetypes := Archetype.all
  anomalies := Anomaly.all

def sampleLength (r : Recipe) : Nat :=
  match r.mode with
  | .sequence => r.traceLength
  | .flat => 1

def Valid (r : Recipe) : Prop :=
  r.sampleCount ≠ 0 ∧ r.traceLength ≠ 0 ∧ (0.0 ≤ r.anomalyRatio ∧ r.anomalyRatio ≤ 1.0) ∧
    (0.0 < r.stepHours ∧ r.stepHours ≤ maxStepHours) ∧ r.archetypes ≠ [] ∧
    ¬ (0.0 < r.anomalyRatio ∧ r.anomalies = [])

def fault? (r : Recipe) : Option RecipeFault :=
  if r.sampleCount = 0 then some (.sampleCount r.sampleCount)
  else if r.traceLength = 0 then some (.traceLength r.traceLength)
  else if ¬ (0.0 ≤ r.anomalyRatio ∧ r.anomalyRatio ≤ 1.0) then some (.anomalyRatio r.anomalyRatio)
  else if ¬ (0.0 < r.stepHours ∧ r.stepHours ≤ maxStepHours) then some (.stepHours r.stepHours)
  else if r.archetypes = [] then some .noArchetypes
  else if 0.0 < r.anomalyRatio ∧ r.anomalies = [] then some (.noAnomalies r.anomalyRatio)
  else none

theorem valid_of_fault?_eq_none {r : Recipe} (h : r.fault? = none) : r.Valid := by
  unfold fault? at h
  split at h
  · cases h
  · split at h
    · cases h
    · split at h
      · cases h
      · split at h
        · cases h
        · split at h
          · cases h
          · split at h
            · cases h
            · refine ⟨‹_›, ‹_›, Decidable.not_not.mp ‹_›, Decidable.not_not.mp ‹_›, ‹_›, ‹_›⟩

end Recipe

abbrev CheckedRecipe := { r : Recipe // r.Valid }

def Recipe.check (r : Recipe) : Except RecipeFault CheckedRecipe :=
  match h : r.fault? with
  | none => .ok ⟨r, valid_of_fault?_eq_none h⟩
  | some fault => .error fault

end WorkloadSynth
