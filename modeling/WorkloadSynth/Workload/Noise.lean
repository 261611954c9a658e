import WorkloadSynth.Number.Scalar

/-!
Noise sources: where a trace takes its random terms from.

A source is a pair of draws over a state it carries along: a normal deviate of a given spread and a
uniform one between two bounds.  `silent` answers with the mean and the lower bound, `Tape.source`
replays a list of values, and `recorded` keeps the list of calls beside the state of another source.
`onFirst` and `onSecond` let two sources live side by side on a pair of states.
-/

set_option autoImplicit false

namespace WorkloadSynth

structure NoiseSource (σ α : Type) where
  normal : (spread : α) → σ → α × σ
  uniform : (low high : α) → σ → α × σ

inductive NoiseCall (α : Type) where
  | normal (spread : α)
  | uniform (low high : α)
deriving DecidableEq, Repr

namespace NoiseSource

variable {σ τ α : Type}

/-- No noise at all: every normal deviate is its mean, every uniform one its lower bound. -/
def silent [Scalar α] : NoiseSource σ α where
  normal _ s := (0.0, s)
  uniform low _ s := (low, s)

def onFirst (source : NoiseSource σ α) : NoiseSource (σ × τ) α where
  normal spread s := let (x, s₁) := source.normal spread s.1; (x, (s₁, s.2))
  uniform low high s := let (x, s₁) := source.uniform low high s.1; (x, (s₁, s.2))

def onSecond (source : NoiseSource τ α) : NoiseSource (σ × τ) α where
  normal spread s := let (x, s₂) := source.normal spread s.2; (x, (s.1, s₂))
  uniform low high s := let (x, s₂) := source.uniform low high s.2; (x, (s.1, s₂))

def recorded {β : Type} (note : NoiseCall α → β) (source : NoiseSource σ α) :
    NoiseSource (σ × List β) α where
  normal spread s :=
    let (x, s₁) := source.normal spread s.1
    (x, (s₁, note (.normal spread) :: s.2))
  uniform low high s :=
    let (x, s₁) := source.uniform low high s.1
    (x, (s₁, note (.uniform low high) :: s.2))

end NoiseSource

/-- A list of values that is read from the front and begins again when it ends. -/
structure Tape (α : Type) where
  values : Array α
  position : Nat

namespace Tape

variable {α : Type} [Scalar α]

def next (t : Tape α) : α × Tape α :=
  if t.values.isEmpty then (0.0, t)
  else (t.values.getD (t.position % t.values.size) 0.0, { t with position := t.position + 1 })

/-- Reads a tape value `v` as `v` spreads from the mean, or as the point a share `v` of the way
between the bounds. -/
def source : NoiseSource (Tape α) α where
  normal spread t := let (v, t) := t.next; (v * spread, t)
  uniform low high t := let (v, t) := t.next; (low + (high - low) * v, t)

end Tape

end WorkloadSynth
