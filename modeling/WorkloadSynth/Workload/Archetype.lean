import WorkloadSynth.Number.Scalar
import WorkloadSynth.Text.Blank

/-!
The kinds of workload and the numbers that tell them apart.

An archetype is one of five names.  All that differs between archetypes is the `Profile` it is
looked up under; no other code asks which archetype it has.
-/

set_option autoImplicit false

namespace WorkloadSynth

inductive Archetype where
  | web
  | batch
  | database
  | microservice
  | cron
deriving DecidableEq, Repr, Inhabited

namespace Archetype

def all : List Archetype := [web, batch, database, microservice, cron]

def name : Archetype → String
  | web => "web"
  | batch => "batch"
  | database => "database"
  | microservice => "microservice"
  | cron => "cron"

def ofName? (text : String) : Option Archetype :=
  let key := Text.lower (Text.trim text)
  all.find? (·.name = key)

end Archetype

/-- How a workload behaves.  The bases are median shares before the time of day counts, that of memory at age
zero, and `memoryGrowth` is what a day adds to it. -/
structure Profile (α : Type) where
  baseCpu : α
  baseMemory : α
  cpuVariance : α
  memoryGrowth : α
  burstiness : α
  diurnalFactor : α
  autocorrelation : α

def Archetype.profile {α : Type} [Scalar α] : Archetype → Profile α
  | web => ⟨0.3, 0.4, 0.3, 0.0, 0.4, 0.5, 0.7⟩
  | batch => ⟨0.1, 0.2, 0.6, 0.0, 0.7, 0.1, 0.5⟩
  | database => ⟨0.4, 0.6, 0.15, 0.02, 0.2, 0.2, 0.85⟩
  | microservice => ⟨0.2, 0.3, 0.25, 0.0, 0.35, 0.3, 0.6⟩
  | cron => ⟨0.05, 0.1, 0.8, 0.0, 0.9, 0.0, 0.3⟩

end WorkloadSynth
