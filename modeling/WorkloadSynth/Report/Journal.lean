import WorkloadSynth.Dataset.Recipe
import WorkloadSynth.Dataset.Split

/-!
The journal of a run: what happened, in order.

An `Entry` says what happened and `Entry.record` how it is written down: a severity, the part of the
program it comes from, and named fields.  A `Journal` collects entries; those of the run itself
carry its identifier, those for debugging do not.
-/

set_option autoImplicit false

namespace WorkloadSynth

inductive Severity where
  | debug
  | info
  | warn
deriving DecidableEq, Repr

def Severity.name : Severity → String
  | .debug => "DEBUG"
  | .info => "INFO"
  | .warn => "WARN"

inductive FieldValue where
  | text (s : String)
  | count (n : Nat)
  | number (x : Float)
deriving DecidableEq

inductive Entry where
  | started (version : String)
  | generating (recipe : Recipe)
  | progress (made total : Nat)
  | split (train validation test : Nat)
  | written (path : String) (samples : Nat) (seconds : Float)
  | rejected (reason : String)
  | configured (output : String)
  | poolComplete (samples : Nat)
  | partWritten (part : Part) (samples : Nat)
deriving DecidableEq

structure Record where
  severity : Severity
  target : String
  fields : List (String × FieldValue)
deriving DecidableEq

namespace Entry

def severity : Entry → Severity
  | rejected _ => .warn
  | poolComplete _ | partWritten .. => .debug
  | _ => .info

def target : Entry → String
  | configured _ => "resource_datagen"
  | poolComplete _ => "datagen_lib::dataset::assembler"
  | partWritten .. => "datagen_lib::dataset::writer"
  | _ => "datagen_lib::observability"

/-- The name of an entry that carries the run's identifier; other entries have none. -/
def event? : Entry → Option String
  | started _ => some "datagen_started"
  | generating _ => some "generation_started"
  | progress .. => some "generation_progress"
  | split .. => some "dataset_split"
  | written .. => some "dataset_written"
  | rejected _ => some "config_rejected"
  | configured _ | poolComplete _ | partWritten .. => none

def message : Entry → String
  | started _ => "Training data generator started"
  | generating _ => "Generating samples"
  | progress made total => "Generated " ++ toString made ++ "/" ++ toString total ++ " samples"
  | split .. => "Shuffled and split sample pool"
  | written .. => "Dataset saved"
  | rejected _ => "Configuration rejected, nothing generated"
  | configured _ => "Generator configured"
  | poolComplete _ => "Sample pool complete, shuffling"
  | partWritten .. => "Wrote split arrays"

def details : Entry → List (String × FieldValue)
  | started version => [("version", .text version)]
  | generating r =>
    [("num_samples", .count r.sampleCount), ("seq_len", .count r.sampleLength),
      ("anomaly_ratio", .number r.anomalyRatio), ("seed", .count r.seed.toNat),
      ("step_hours", .number r.stepHours), ("mode", .text r.mode.name)]
  | progress made total => [("generated", .count made), ("total", .count total)]
  | split train validation test =>
    [("train", .count train), ("validation", .count validation), ("test", .count test)]
  | written path samples seconds =>
    [("path", .text path), ("samples", .count samples), ("duration_secs", .number seconds)]
  | rejected reason => [("reason", .text reason)]
  | configured output => [("output", .text output)]
  | poolComplete samples => [("samples", .count samples)]
  | partWritten part samples => [("split", .text part.key), ("samples", .count samples)]

end Entry

structure Event where
  run : Option String
  entry : Entry
deriving DecidableEq

def Event.record (e : Event) : Record where
  severity := e.entry.severity
  target := e.entry.target
  fields :=
    [("message", .text e.entry.message)] ++
      (e.entry.event?.map fun name => ("event", FieldValue.text name)).toList ++
      (e.run.map fun id => ("run_id", FieldValue.text id)).toList ++ e.entry.details

/-- What is written down about a run.  Without an identifier only debugging is. -/
structure Journal where
  run : Option String
  events : Array Event

namespace Journal

def anonymous : Journal := ⟨none, #[]⟩

def ofRun (id : String) : Journal := ⟨some id, #[]⟩

def note (j : Journal) (entry : Entry) : Journal :=
  match j.run with
  | none => j
  | some id => { j with events := j.events.push ⟨some id, entry⟩ }

def debug (j : Journal) (entry : Entry) : Journal :=
  { j with events := j.events.push ⟨none, entry⟩ }

end Journal

end WorkloadSynth
