import WorkloadSynth.Workload.Usage
import WorkloadSynth.Workload.Noise
import WorkloadSynth.Text.Blank

/-!
Anomalies: what can go wrong in a trace, from which step on, and what it does to the readings.

An `Episode` is an anomaly with its onset.  `Episode.strike` leaves every step before the onset
alone and distorts each later one from readings of its own noise source; only a memory leak draws.
-/

set_option autoImplicit false

namespace WorkloadSynth

inductive Anomaly where
  | memoryLeak
  | cpuSpike
  | noisy
deriving DecidableEq, Repr

namespace Anomaly

def all : List Anomaly := [memoryLeak, cpuSpike, noisy]

def name : Anomaly → String
  | memoryLeak => "memory_leak"
  | cpuSpike => "cpu_spike"
  | noisy => "noisy"

/-- Reads a name; blanks around it and capital letters do not matter, and a hyphen stands for an
underscore. -/
def ofName? (text : String) : Option Anomaly :=
  let key := String.ofList
    ((Text.lower (Text.trim text)).toList.map fun c => if c = '-' then '_' else c)
  all.find? (·.name = key)

def pointConfidence {α : Type} [Scalar α] : Anomaly → α
  | memoryLeak => 0.7
  | cpuSpike => 0.75
  | noisy => 0.6

end Anomaly

/-- An anomaly that lasts from a step to the end of the trace. -/
structure Episode where
  anomaly : Anomaly
  onset : Nat
deriving DecidableEq, Repr

namespace Episode

def secondHalf (anomaly : Anomaly) (length : Nat) : Episode := ⟨anomaly, length / 2⟩

def Covers (e : Episode) (index : Nat) : Prop := e.onset ≤ index

instance (e : Episode) (index : Nat) : Decidable (e.Covers index) :=
  inferInstanceAs (Decidable (e.onset ≤ index))

variable {σ α : Type} [Scalar α]

/-- The readings of one step under an anomaly, before they are bounded again. -/
def distort (anomaly : Anomaly) (source : NoiseSource σ α) (u : Usage α) (s : σ) : Usage α × σ :=
  match anomaly with
  | .memoryLeak =>
    let (extra, s) := source.uniform 0.0 0.2 s
    ({ u with
        memoryTrend := 0.3 + extra
        memory := { u.memory with p99 := Scalar.confineUnit (u.memory.p99 * 1.3) } }, s)
  | .cpuSpike =>
    ({ u with
        cpu := { u.cpu with p99 := Scalar.confineUnit (u.cpu.p99 * 2.0) }
        cpuVariance := u.cpuVariance * 2.0
        throttle := Scalar.confineUnit (u.throttle * 2.0) }, s)
  | .noisy => ({ u with cpuVariance := u.cpuVariance * 3.0 }, s)

def strike (e : Episode) (source : NoiseSource σ α) (index : Nat) (u : Usage α) (s : σ) :
    Except RangeFault (Usage α × σ) :=
  if e.Covers index then do
    let (distorted, s) := distort e.anomaly source u s
    let bounded ← distorted.bounded
    pure (bounded, s)
  else pure (u, s)

end Episode

end WorkloadSynth
