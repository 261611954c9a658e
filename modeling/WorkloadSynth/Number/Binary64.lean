import WorkloadSynth.Number.Scalar

/-!
Double precision as a scalar, with the conversions that have to be exact.

`decode` reads a double as an integer times a power of two.  From it come `singleBits`, the nearest
single-precision pattern with ties to even, and `ofSingleBits`, which widens such a pattern without
loss.  `fraction` is exact as well: below `2 ^ 53` it subtracts the truncated value, and above there
is nothing after the point.
-/

set_option autoImplicit false

namespace WorkloadSynth.Binary64

/-- A double as the number it stands for: `± mantissa · 2 ^ exponent`. -/
inductive Decoded where
  | undefined
  | infinite (negative : Bool)
  | finite (negative : Bool) (mantissa : Nat) (exponent : Int)
deriving DecidableEq, Repr

def isNegative (x : Float) : Bool := x.toBits >>> 63 == 1

def decode (x : Float) : Decoded :=
  let bits := x.toBits.toNat
  let negative := isNegative x
  let field : Nat := bits / Nat.pow 2 52 % Nat.pow 2 11
  let tail : Nat := bits % Nat.pow 2 52
  if field = 2047 then
    if tail = 0 then .infinite negative else .undefined
  else if field = 0 then .finite negative tail (-1074)
  else .finite negative (Nat.pow 2 52 + tail) ((field : Int) - 1075)

def roundShift (m s : Nat) : Nat :=
  let q := m / Nat.pow 2 s
  let twice := 2 * (m % Nat.pow 2 s)
  if Nat.pow 2 s < twice then q + 1
  else if twice = Nat.pow 2 s then q + q % 2
  else q

/-- The magnitude bits of the single nearest to `m · 2 ^ e`.  A carry out of the mantissa moves into
the exponent field, and what is too large becomes infinity. -/
def singleMagnitude (m : Nat) (e : Int) : Nat :=
  let unit := max (-149) (e + (m.log2 : Int) - 23)
  let shift := unit - e
  let r := if shift ≤ 0 then m * Nat.pow 2 (-shift).toNat else roundShift m shift.toNat
  min 0x7f800000 ((unit + 149).toNat * Nat.pow 2 23 + r)

def singleBits (x : Float) : UInt32 :=
  match decode x with
  | .undefined => 0x7fc00000
  | .infinite negative => if negative then 0xff800000 else 0x7f800000
  | .finite negative m e =>
    let magnitude := if m = 0 then 0 else singleMagnitude m e
    (if negative then 0x80000000 else 0) ||| UInt32.ofNat magnitude

def powerOfTwo (e : Int) : Float := Float.ofBits (UInt64.ofNat ((e + 1023).toNat * Nat.pow 2 52))

def ofSingleBits (bits : UInt32) : Float :=
  let n := bits.toNat
  let field : Nat := n / Nat.pow 2 23 % Nat.pow 2 8
  let tail : Nat := n % Nat.pow 2 23
  let magnitude :=
    if field = 255 then
      if tail = 0 then 1.0 / 0.0 else 0.0 / 0.0
    else if field = 0 then (UInt64.ofNat tail).toFloat * powerOfTwo (-149)
    else (UInt64.ofNat (Nat.pow 2 23 + tail)).toFloat * powerOfTwo ((field : Int) - 150)
  if n / Nat.pow 2 31 = 1 then -magnitude else magnitude

def narrow (x : Float) : Float := ofSingleBits (singleBits x)

def ofNat (n : Nat) : Float :=
  if n < Nat.pow 2 64 then (UInt64.ofNat n).toFloat else Float.ofScientific n false 0

def fraction (x : Float) : Float :=
  let size := x.abs
  let rest := if size < 9007199254740992.0 then size - size.toUInt64.toFloat else size - size
  if isNegative x then -rest else rest

/-- The sine of a finite argument, held to `[-1, 1]`; no other argument has one. -/
def sine (x : Float) : Float :=
  if x.isFinite then
    let s := x.sin
    if s ≤ 1.0 then (if -1.0 ≤ s then s else -1.0) else 1.0
  else 0.0 / 0.0

instance : Scalar Float where
  decideLt := inferInstanceAs (DecidableRel (LT.lt : Float → Float → Prop))
  decideLe := inferInstanceAs (DecidableRel (LE.le : Float → Float → Prop))
  ofNat := ofNat
  sqrt := Float.sqrt
  sine := sine
  fraction := fraction
  narrow := narrow

def hexDigits (width : Nat) (n : Nat) : String :=
  let digits := Nat.toDigits 16 n
  String.ofList (List.replicate (width - digits.length) '0' ++ digits)

end WorkloadSynth.Binary64
