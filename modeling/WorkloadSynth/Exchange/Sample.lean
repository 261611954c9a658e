import WorkloadSynth.Dataset.Sample
import WorkloadSynth.Exchange.Form

/-!
The JSON forms of samples and of all that they are made of.
-/

set_option autoImplicit false

namespace WorkloadSynth

open Exchange (toJson ofJson?)

instance : Exchange Archetype := .ofNames Archetype.all Archetype.name

instance : Exchange Anomaly := .ofNames Anomaly.all Anomaly.name

instance : Exchange Mode := .ofNames [.sequence, .flat] Mode.name

instance : Exchange (Moment Float) :=
  .ofRow ["hour", "day", "age_days"] (fun m => [m.hour, m.day, m.ageDays]) fun
    | [hour, day, ageDays] => some ⟨hour, day, ageDays⟩
    | _ => none

namespace Usage

def fieldNames : List String :=
  ["cpu_usage_p50", "cpu_usage_p95", "cpu_usage_p99", "mem_usage_p50", "mem_usage_p95",
    "mem_usage_p99", "cpu_variance", "mem_trend", "throttle_ratio", "hour_of_day", "day_of_week",
    "workload_age_days"]

end Usage

instance : Exchange (Usage Float) := .ofRow Usage.fieldNames Usage.toList Usage.ofList?

namespace Recommendation

def fieldNames : List String :=
  ["cpu_request", "cpu_limit", "mem_request", "mem_limit", "confidence"]

end Recommendation

instance : Exchange (Recommendation Float) :=
  .ofRow Recommendation.fieldNames Recommendation.toList Recommendation.ofList?

instance : Exchange Episode where
  shape := .record [("kind", Exchange.shape Anomaly), ("onset", Exchange.shape Nat)]
  toJson e := .obj [("kind", toJson e.anomaly), ("onset", toJson e.onset)]
  ofJson?
    | .obj [(_, kind), (_, onset)] => do pure ⟨← ofJson? kind, ← ofJson? onset⟩
    | _ => none

instance : Exchange (Trace Float) where
  shape := .record
    [("archetype", Exchange.shape Archetype), ("start", Exchange.shape (Moment Float)),
      ("anomaly", Exchange.shape (Option Episode)), ("steps", Exchange.shape (List (Usage Float)))]
  toJson t := .obj
    [("archetype", toJson t.archetype), ("start", toJson t.start), ("anomaly", toJson t.episode),
      ("steps", toJson t.steps)]
  ofJson?
    | .obj [(_, archetype), (_, start), (_, anomaly), (_, steps)] => do
      pure ⟨← ofJson? archetype, ← ofJson? start, ← ofJson? anomaly, ← ofJson? steps⟩
    | _ => none

instance : Exchange (Sample Float) where
  shape := .record
    [("index", Exchange.shape UInt64), ("sequence", Exchange.shape (Trace Float)),
      ("label", Exchange.shape (Recommendation Float))]
  toJson s := .obj
    [("index", toJson s.index), ("sequence", toJson s.trace), ("label", toJson s.label)]
  ofJson?
    | .obj [(_, index), (_, sequence), (_, label)] => do
      pure ⟨← ofJson? index, ← ofJson? sequence, ← ofJson? label⟩
    | _ => none

end WorkloadSynth
