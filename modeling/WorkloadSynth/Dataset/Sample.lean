import WorkloadSynth.Dataset.Recipe
import WorkloadSynth.Random.Draw
import WorkloadSynth.Workload.Label

/-!
Samples: a trace with its label and its number in the pool.

`Plan.draw` settles what sample `index` will be, from the plan stream of that index;
`Assembly.sample` makes it, from the trace and anomaly streams.  Both read nothing else, so a sample
can be made on its own and in any order.

A draw from a list can fail: `Plan.draw?` does whenever a list it draws from is empty.
-/

set_option autoImplicit false

namespace WorkloadSynth

open WorkloadSynth.Random (Generator)

structure Sample (α : Type) where
  index : UInt64
  trace : Trace α
  label : Recommendation α
deriving DecidableEq, Repr

structure Plan where
  index : UInt64
  archetype : Archetype
  start : Moment Float
  anomaly : Option Anomaly
deriving DecidableEq, Inhabited

namespace Plan

def minAgeDays : Float := 0.1

def maxAgeDays : Float := 30.0

def drawStart (g : Generator) : Moment Float × Generator :=
  let hour := g.fraction
  let day := hour.2.fraction
  let ageDays := day.2.between minAgeDays maxAgeDays
  (⟨hour.1, day.1, ageDays.1⟩, ageDays.2)

/-- No anomaly, or one of the kinds for a share `ratio` of all generators. -/
def drawAnomaly? (ratio : Float) (kinds : List Anomaly) (g : Generator) : Option (Option Anomaly) :=
  let share := g.fraction
  if share.1 < ratio then (share.2.choose? kinds).map fun drawn => some drawn.1 else some none

/-- The plan of one sample, unless it takes a draw from an empty list.  The anomaly is drawn last, so
a greater ratio turns more plans anomalous and changes nothing else. -/
def draw? (recipe : Recipe) (index : UInt64) : Option Plan :=
  ((Generator.ofStream recipe.seed .plan index).choose? recipe.archetypes).bind fun drawn =>
    let start := drawStart drawn.2
    (drawAnomaly? recipe.anomalyRatio recipe.anomalies start.2).map fun anomaly =>
      { index, archetype := drawn.1, start := start.1, anomaly }

/-- The plan of one sample of a checked recipe, which never draws from an empty list. -/
def draw (recipe : CheckedRecipe) (index : UInt64) : Plan :=
  (draw? recipe.val index).getD default

/-- The episode a plan calls for, over the second half of its trace. -/
def episode (p : Plan) (length : Nat) : Option Episode :=
  p.anomaly.map fun anomaly => Episode.secondHalf anomaly length

end Plan

structure Assembly where
  recipe : CheckedRecipe
  policy : SizingPolicy Float

namespace Assembly

def ofRecipe (r : Recipe) : Except RecipeFault Assembly := do
  pure ⟨← r.check, .standard⟩

def plan (a : Assembly) (index : UInt64) : Plan := Plan.draw a.recipe index

def model (a : Assembly) (p : Plan) : TraceModel Float where
  archetype := p.archetype
  stepHours := a.recipe.val.stepHours
  carries := a.recipe.val.mode = .sequence

def trace (a : Assembly) (p : Plan) : Except RangeFault (Trace Float × Generator × Generator) :=
  let recipe := a.recipe.val
  let length := recipe.sampleLength
  (a.model p).trace Generator.source.onFirst Generator.source.onSecond p.start length
    (p.episode length)
    (Generator.ofStream recipe.seed .trace p.index, Generator.ofStream recipe.seed .anomaly p.index)

/-- The label of a plan's trace.  In flat mode the confidence comes from one further draw of the trace
stream `g`. -/
def label (a : Assembly) (p : Plan) (t : Trace Float) (g : Generator) :
    Except RangeFault (Recommendation Float) :=
  match a.recipe.val.mode with
  | .sequence => a.policy.label t
  | .flat =>
    match t.steps with
    | [] => .error .outOfRange
    | first :: _ => a.policy.labelPoint first (Generator.source.uniform 0.85 0.95 g).1 p.anomaly

def sample (a : Assembly) (p : Plan) : Except RangeFault (Sample Float) := do
  let (t, streams) ← a.trace p
  let label ← a.label p t streams.1
  pure ⟨p.index, t, label⟩

end Assembly

end WorkloadSynth
