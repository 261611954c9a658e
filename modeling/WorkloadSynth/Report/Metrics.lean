import WorkloadSynth.Decimal.Layout
import WorkloadSynth.Stats.Tally
import WorkloadSynth.Workload.Anomaly

/-!
Metrics of a run: how many samples of which archetype, how many anomalies of which kind, and how
long samples and files took.

`Metrics.exposition` writes them in the text format that monitoring systems scrape: families in the
order of their names, series in the order of their labels, a family of counters only if it has a
series, a histogram always.
-/

set_option autoImplicit false

namespace WorkloadSynth

structure Histogram where
  bounds : List Float
  /-- Observations whose first bound this is. -/
  counts : List Nat
  total : Nat
  sum : Float

namespace Histogram

def ofBounds (bounds : List Float) : Histogram := ⟨bounds, bounds.map fun _ => 0, 0, 0.0⟩

def bump (x : Float) : List Float → List Nat → List Nat
  | bound :: bounds, n :: counts =>
    if x ≤ bound then (n + 1) :: counts else n :: bump x bounds counts
  | _, counts => counts

def observe (h : Histogram) (x : Float) : Histogram :=
  { h with counts := bump x h.bounds h.counts, total := h.total + 1, sum := h.sum + x }

def cumulative (start : Nat) : List Nat → List Nat
  | [] => []
  | n :: rest => (start + n) :: cumulative (start + n) rest

def lines (h : Histogram) (name : String) : List String :=
  let bucket := fun (bound : String) (n : Nat) =>
    name ++ "_bucket\x7ble=\"" ++ bound ++ "\"\x7d " ++ toString n
  (h.bounds.zip (cumulative 0 h.counts)).map (fun p => bucket (Decimal.text p.1) p.2) ++
    [bucket "+Inf" h.total, name ++ "_sum " ++ Decimal.text h.sum,
      name ++ "_count " ++ toString h.total]

end Histogram

structure Metrics where
  sampleSeconds : Histogram
  writeSeconds : Histogram
  samples : Tally
  anomalies : Tally

namespace Metrics

def empty : Metrics where
  sampleSeconds := .ofBounds
    [0.000001, 0.000005, 0.00001, 0.000025, 0.00005, 0.0001, 0.00025, 0.0005, 0.001, 0.005]
  writeSeconds := .ofBounds [0.01, 0.05, 0.1, 0.25, 0.5, 1.0, 2.5, 5.0, 10.0, 30.0]
  samples := []
  anomalies := []

def observeSample (m : Metrics) (seconds : Float) : Metrics :=
  { m with sampleSeconds := m.sampleSeconds.observe seconds }

def observeWrite (m : Metrics) (seconds : Float) : Metrics :=
  { m with writeSeconds := m.writeSeconds.observe seconds }

def countSample (m : Metrics) (a : Archetype) : Metrics :=
  { m with samples := m.samples.add a.name }

def countAnomaly (m : Metrics) (a : Anomaly) : Metrics :=
  { m with anomalies := m.anomalies.add a.name }

/-- The count of an archetype, which is listed from then on. -/
def samplesOf (m : Metrics) (a : Archetype) : Nat × Metrics :=
  (m.samples.count a.name, { m with samples := m.samples.touch a.name })

def familyHead (name help kind : String) : List String :=
  ["# HELP " ++ name ++ " " ++ help, "# TYPE " ++ name ++ " " ++ kind]

def counterLines (name help label : String) (t : Tally) : List String :=
  if t.isEmpty then []
  else familyHead name help "counter" ++
    t.map fun p => name ++ "\x7b" ++ label ++ "=\"" ++ p.1 ++ "\"\x7d " ++ toString p.2

def lines (m : Metrics) : List String :=
  counterLines "datagen_anomalies_injected_total"
      "Number of samples carrying an anomaly, per kind" "kind" m.anomalies ++
    familyHead "datagen_sample_latency_seconds"
      "Time spent simulating and labelling one sample" "histogram" ++
    m.sampleSeconds.lines "datagen_sample_latency_seconds" ++
    counterLines "datagen_samples_generated_total"
      "Number of samples generated per workload archetype" "archetype" m.samples ++
    familyHead "datagen_write_latency_seconds"
      "Time spent writing the dataset artifacts" "histogram" ++
    m.writeSeconds.lines "datagen_write_latency_seconds"

def exposition (m : Metrics) : String := String.join (m.lines.map (· ++ "\n"))

end Metrics

end WorkloadSynth
