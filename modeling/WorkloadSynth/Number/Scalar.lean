/-!
The arithmetic that traces, labels and statistics are written over.

One definition serves two readings: with `Float` it is the program that runs, with an exact field
it is the formula the program approximates.  A scalar has the field operations, a decidable order,
decimal literals, a square root, a sine, the remainder of a division by one, and the rounding to
single precision that stored arrays apply.

The order need not be total: a value that is not at most itself is *undefined* (`IsUndefined`), and
`larger`, `smaller`, `confine` and `clamp` say what becomes of it.
-/

set_option autoImplicit false

namespace WorkloadSynth

class Scalar (α : Type) extends Add α, Sub α, Mul α, Div α, Neg α, LT α, LE α, OfScientific α where
  decideLt : DecidableRel (LT.lt : α → α → Prop)
  decideLe : DecidableRel (LE.le : α → α → Prop)
  ofNat : Nat → α
  sqrt : α → α
  sine : α → α
  /-- The remainder of a division by one, with the sign of the dividend. -/
  fraction : α → α
  narrow : α → α

attribute [reducible] Scalar.decideLt Scalar.decideLe
attribute [instance] Scalar.decideLt Scalar.decideLe

namespace Scalar

variable {α : Type} [Scalar α]

/-- Only an undefined value fails to be at most itself. -/
def IsUndefined (x : α) : Prop := ¬ x ≤ x

instance (x : α) : Decidable (IsUndefined x) := inferInstanceAs (Decidable (¬ x ≤ x))

/-- The larger of two values.  An undefined value loses, and a tie keeps the first. -/
@[inline] def larger (a b : α) : α :=
  if IsUndefined a then b else if a < b then b else a

@[inline] def smaller (a b : α) : α :=
  if IsUndefined a then b else if b < a then b else a

@[inline] def confine (x lo hi : α) : α :=
  if x < lo then lo else if hi < x then hi else x

@[inline] def confineUnit (x : α) : α := confine x 0.0 1.0

@[inline] def wrapUnit (x : α) : α :=
  let r := fraction x
  if r < 0.0 then r + 1.0 else r

end Scalar

/-- Why a computation stopped: the bounds of a clamp were not an interval, or a list did not have the
element that was asked for. -/
inductive RangeFault where
  | outOfRange
deriving DecidableEq, Repr

@[inline] def Scalar.clamp {α : Type} [Scalar α] (x lo hi : α) : Except RangeFault α :=
  if lo ≤ hi then .ok (Scalar.confine x lo hi) else .error .outOfRange

end WorkloadSynth
