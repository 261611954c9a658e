import WorkloadSynth.Number.Binary64

/-!
The shortest decimal that reads back as a given double.

A double `m · 2 ^ e` is what every real between the midpoints to its neighbours rounds to, the
midpoints included when `m` is even.  For one digit, two digits and so on, `shortest` looks at the
two numbers of that many digits around the value; the first length with one of them in the interval
wins, and of two the nearer one.  `Tie` says which one wins if both are equally near.
-/

set_option autoImplicit false

namespace WorkloadSynth.Decimal

/-- Which of two equally near decimals is taken. -/
inductive Tie where
  | toEven
  | away
deriving DecidableEq, Repr

structure Scaled where
  digits : Nat
  exponent : Int
deriving DecidableEq, Repr

def excess (i : Int) : Nat := i.toNat

/-- The interval of reals that round to a double, in units of `2 ^ unit`. -/
structure Interval where
  low : Nat
  value : Nat
  high : Nat
  closed : Bool
  unit : Int

/-- The interval around `m · 2 ^ e`.  Below a power of two the neighbour is twice as near, except
where the exponent cannot sink further. -/
def Interval.around (m : Nat) (e : Int) : Interval :=
  let narrowBelow := m = Nat.pow 2 52 ∧ -1074 < e
  { low := 4 * m - (if narrowBelow then 1 else 2)
    value := 4 * m
    high := 4 * m + 2
    closed := m % 2 = 0
    unit := e - 2 }

/-- How a point of the grid `10 ^ grid` compares with the value and the ends of an interval: both
are brought to a common denominator. -/
structure Ruler where
  interval : Interval
  perUnit : Nat
  perStep : Nat

def Ruler.at (i : Interval) (grid : Int) : Ruler :=
  { interval := i
    perUnit := Nat.pow 2 (excess i.unit) * Nat.pow 10 (excess (-grid))
    perStep := Nat.pow 2 (excess (-i.unit)) * Nat.pow 10 (excess grid) }

namespace Ruler

def floor (r : Ruler) : Nat := r.interval.value * r.perUnit / r.perStep

def contains (r : Ruler) (c : Nat) : Bool :=
  let x := c * r.perStep
  let low := r.interval.low * r.perUnit
  let high := r.interval.high * r.perUnit
  if r.interval.closed then low ≤ x && x ≤ high else low < x && x < high

def nearest? (r : Ruler) (tie : Tie) : Option Nat :=
  let below := r.floor
  let above := below + 1
  match r.contains below, r.contains above with
  | true, true =>
    let fromBelow := r.interval.value * r.perUnit - below * r.perStep
    let toAbove := above * r.perStep - r.interval.value * r.perUnit
    if fromBelow < toAbove then some below
    else if toAbove < fromBelow then some above
    else match tie with
      | .toEven => some (if below % 2 = 0 then below else above)
      | .away => some above
  | true, false => some below
  | false, true => some above
  | false, false => none

end Ruler

def leadingExponent (m : Nat) (e : Int) : Int :=
  let estimate := ((m.log2 : Int) + e) * 30103 / 100000
  let next := estimate + 1
  let power := Nat.pow 10 (excess next) * Nat.pow 2 (excess (-e))
  let value := m * Nat.pow 2 (excess e) * Nat.pow 10 (excess (-next))
  if power ≤ value then next
  else estimate

def stripZeros : (limit : Nat) → Scaled → Scaled
  | 0, d => d
  | limit + 1, d =>
    if d.digits ≠ 0 ∧ d.digits % 10 = 0 then stripZeros limit ⟨d.digits / 10, d.exponent + 1⟩
    else d

/-- Tries `tries` lengths, the first with its last digit at `10 ^ grid`. -/
def search (i : Interval) (tie : Tie) : (tries : Nat) → (grid : Int) → Scaled
  | 0, grid => ⟨(Ruler.at i grid).floor, grid⟩
  | tries + 1, grid =>
    match (Ruler.at i grid).nearest? tie with
    | some c => stripZeros 20 ⟨c, grid⟩
    | none => search i tie tries (grid - 1)

/-- The shortest decimal in the interval around `m · 2 ^ e`; seventeen digits always suffice. -/
def shortest (tie : Tie) (m : Nat) (e : Int) : Scaled :=
  if m = 0 then ⟨0, 0⟩ else search (.around m e) tie 17 (leadingExponent m e)

end WorkloadSynth.Decimal
