import Mathlib

/-!
# Real numbers beside doubles

What the operations on doubles are compared with.  `evenNearest` rounds to a whole number, a half to the
even neighbour.  `rounded` does the same on the grid that doubles have around a number: fifty-three bits
below its leading one, but never finer than `2 ^ (-1074)`.  It knows no largest number; `saturated` adds the
two infinities.

The arithmetic of doubles works on a significand with two more bits, one for the half and one for whatever
is left.  `StandsFor` says which real numbers such a triple can mean, and `CutAt` what is known of a number
that was cut after its whole part.  An unpacked double is the real number `exactValue`.
-/

set_option autoImplicit false

namespace WorkloadSynth.Binary64

open Float.Model (UnpackedFloat)
open Float.Model.UnpackedFloat

/-! ## Rounding -/

/-- The whole number nearest to `x`; of two equally near the even one. -/
noncomputable def evenNearest (x : ℝ) : ℤ :=
  if x < ⌊x⌋ + 1 / 2 then ⌊x⌋
  else if ⌊x⌋ + 1 / 2 < x then ⌊x⌋ + 1
  else ⌊x⌋ + ⌊x⌋ % 2

/-- The exponent of the last of fifty-three bits of a positive number, or that of the finest grid. -/
noncomputable def gridExponent (x : ℝ) : ℤ := max (Int.log 2 x - 52) (-1074)

noncomputable def roundedSize (x : ℝ) : ℝ :=
  evenNearest (x / 2 ^ gridExponent x) * 2 ^ gridExponent x

noncomputable def rounded (x : ℝ) : ℝ := if 0 ≤ x then roundedSize x else -roundedSize (-x)

noncomputable def saturated (x : ℝ) : EReal :=
  if 2 ^ (1024 : ℤ) ≤ x then ⊤ else if x ≤ -2 ^ (1024 : ℤ) then ⊥ else x

noncomputable def nearestValue (x : ℝ) : EReal := saturated (rounded x)

/-! ## Significands -/

/-- A significand with its two extra bits stands for `x`: the first extra bit counts halves, the
second tells whether anything is left. -/
def StandsFor (em : ExtendedMantissa) (x : ℝ) : Prop :=
  ⌊2 * x⌋ = 2 * (em.mantissa : ℤ) + em.roundBit.toNat ∧
    (em.stickyBit = true ↔ (⌊2 * x⌋ : ℝ) ≠ 2 * x)

/-- Cutting `x` after its whole part leaves `m`, and the rest of `x` lies as told. -/
def CutAt (m : ℕ) (x : ℝ) : Accuracy → Prop
  | .exact => x = m
  | .inexact .lt => m < x ∧ x < m + 1 / 2
  | .inexact .eq => x = m + 1 / 2
  | .inexact .gt => m + 1 / 2 < x ∧ x < m + 1

/-! ## Unpacked doubles -/

def signed : Sign → ℝ → ℝ
  | .negative, x => -x
  | .positive, x => x

noncomputable def exactValue : UnpackedFloat → ℝ
  | .finite s m e _ => signed s (m * 2 ^ e)
  | _ => 0

def Canonical : UnpackedFloat → Prop
  | .finite _ m e _ => m < 2 ^ 53 ∧ -1074 ≤ e ∧ (2 ^ 52 ≤ m ∨ e = -1074)
  | _ => True

end WorkloadSynth.Binary64
