import WorkloadSynth.Number.Binary64

/-!
Rounding a double to a natural number of 64 bits: to the nearest, a half away from zero.  What is
below zero becomes zero, what is too large the largest, and an undefined value zero.
-/

set_option autoImplicit false

namespace WorkloadSynth.Binary64

def maxNatural : Nat := Nat.pow 2 64 - 1

/-- `m · 2 ^ e` to the nearest natural number, a half upwards. -/
def nearest (m : Nat) (e : Int) : Nat :=
  if 0 ≤ e then m * Nat.pow 2 e.toNat
  else
    let unit := Nat.pow 2 (-e).toNat
    (2 * m + unit) / (2 * unit)

def toNatural (x : Float) : Nat :=
  match decode x with
  | .undefined => 0
  | .infinite negative => if negative then 0 else maxNatural
  | .finite negative m e => if negative then 0 else min maxNatural (nearest m e)

end WorkloadSynth.Binary64
