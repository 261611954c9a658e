import WorkloadSynth.Report.Journal
import WorkloadSynth.Report.Metrics

/-!
Producing a dataset: every sample of the recipe in turn, then the deal into parts.

Production goes on in any monad that has a clock, so that a program can time each sample.  Metrics
are kept if they are given and the journal if it is of a run; what is produced does not depend on
either.  `Assembly.dataset` is the production with a clock that stands still.
-/

set_option autoImplicit false

namespace WorkloadSynth

structure Observation where
  metrics : Option Metrics
  journal : Journal

namespace Observation

def none : Observation := ⟨.none, .anonymous⟩

def note (o : Observation) (entry : Entry) : Observation :=
  { o with journal := o.journal.note entry }

def debug (o : Observation) (entry : Entry) : Observation :=
  { o with journal := o.journal.debug entry }

def countSample (o : Observation) (p : Plan) (seconds : Float) : Observation :=
  let count := fun (m : Metrics) =>
    let m := (m.observeSample seconds).countSample p.archetype
    p.anomaly.elim m m.countAnomaly
  { o with metrics := o.metrics.map count }

end Observation

structure Production where
  pool : Array (Sample Float)
  observed : Observation

namespace Production

def reportInterval : Nat := 10000

def add (p : Production) (total : Nat) (plan : Plan) (sample : Sample Float) (seconds : Float) :
    Production :=
  let pool := p.pool.push sample
  let observed := p.observed.countSample plan seconds
  { pool
    observed :=
      if pool.size % reportInterval = 0 then observed.note (.progress pool.size total)
      else observed }

end Production

namespace Assembly

@[specialize]
def fill {m : Type → Type} [Monad m] (a : Assembly) (clock : m Float) :
    (count : Nat) → Production → m (Except RangeFault Production)
  | 0, p => pure (.ok p)
  | count + 1, p => do
    let begun ← clock
    let plan := a.plan (UInt64.ofNat p.pool.size)
    match a.sample plan with
    | .error fault => pure (.error fault)
    | .ok sample =>
      let done ← clock
      fill a clock count (p.add a.recipe.val.sampleCount plan sample (done - begun))

def finish (a : Assembly) (p : Production) : Dataset Float × Observation :=
  let recipe := a.recipe.val
  let observed := p.observed.debug (.poolComplete p.pool.size)
  let d := Dataset.deal p.pool recipe.seed recipe.sampleLength recipe.mode
  (d, observed.note (.split d.train.length d.validation.length d.test.length))

@[specialize]
def produce {m : Type → Type} [Monad m] (a : Assembly) (clock : m Float)
    (observed : Observation) : m (Except RangeFault (Dataset Float × Observation)) := do
  let recipe := a.recipe.val
  match ← a.fill clock recipe.sampleCount ⟨#[], observed.note (.generating recipe)⟩ with
  | .error fault => pure (.error fault)
  | .ok p => pure (.ok (a.finish p))

/-- The production of a dataset in no time at all. -/
def dataset (a : Assembly) (observed : Observation) :
    Except RangeFault (Dataset Float × Observation) :=
  Id.run (a.produce (pure 0.0) observed)

end Assembly

end WorkloadSynth
