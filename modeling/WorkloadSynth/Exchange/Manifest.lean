import WorkloadSynth.Dataset.Digest
import WorkloadSynth.Exchange.Sample

/-!
Documents that are written and never read: the profile of an archetype, a recipe, and the manifest
that accompanies a dataset.
-/

set_option autoImplicit false

namespace WorkloadSynth

open Exchange (toJson)

def Profile.document (p : Profile Float) : Json := .obj
  [("base_cpu", toJson p.baseCpu), ("base_memory", toJson p.baseMemory),
    ("cpu_variance", toJson p.cpuVariance), ("memory_growth", toJson p.memoryGrowth),
    ("burstiness", toJson p.burstiness), ("diurnal_factor", toJson p.diurnalFactor),
    ("autocorrelation", toJson p.autocorrelation)]

def Recipe.document (r : Recipe) : Json := .obj
  [("num_samples", toJson r.sampleCount), ("seq_len", toJson r.traceLength),
    ("anomaly_ratio", toJson r.anomalyRatio), ("seed", toJson r.seed),
    ("step_hours", toJson r.stepHours), ("mode", toJson r.mode),
    ("archetypes", toJson r.archetypes), ("anomaly_kinds", toJson r.anomalies)]

def Tally.document (t : Tally) : Json := .obj (t.map fun p => (p.1, Json.nat p.2))

def NamedColumn.document (c : NamedColumn) : Json := .obj
  [("name", .str c.name), ("mean", toJson c.column.mean), ("std_dev", toJson c.column.deviation),
    ("min", toJson c.column.minimum), ("max", toJson c.column.maximum)]

def Digest.document (d : Digest) : Json := .obj
  [("generated_at", .str d.generatedAt.text), ("mode", toJson d.mode),
    ("seq_len", toJson d.length), ("seed", toJson d.seed),
    ("anomaly_ratio", toJson d.anomalyRatio), ("step_hours", toJson d.stepHours),
    ("train_samples", toJson d.train), ("validation_samples", toJson d.validation),
    ("test_samples", toJson d.test), ("anomalous_samples", toJson d.anomalous),
    ("by_archetype", d.byArchetype.document), ("by_anomaly", d.byAnomaly.document),
    ("features", .arr (d.features.map NamedColumn.document)),
    ("labels", .arr (d.labels.map NamedColumn.document))]

def Digest.manifest (d : Digest) : String := d.document.pretty

end WorkloadSynth
