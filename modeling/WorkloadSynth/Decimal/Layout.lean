import WorkloadSynth.Decimal.Shortest

/-!
How a decimal is laid out as text.

A `Layout` holds the decisions of one output: for which exponents of the leading digit the number is
written out in full, whether a whole number keeps a point, how an exponent is signed, how ties are
broken and what stands for a value that is no number.  `plain` serves messages and metrics, `json`
the JSON text.  `fixed` writes a set number of places instead, a half going to the even neighbour.
-/

set_option autoImplicit false

namespace WorkloadSynth.Decimal

structure Layout where
  /-- Exponents of the leading digit that are written out in full; `none` for all of them. -/
  inFull : Option (Int × Int)
  keepsPoint : Bool
  positiveMark : String
  tie : Tie
  undefined : String
  infinite : String
  negativeInfinite : String

def Layout.plain : Layout :=
  { inFull := none, keepsPoint := false, positiveMark := "e", tie := .away
    undefined := "NaN", infinite := "inf", negativeInfinite := "-inf" }

/-- JSON: an exponent below `10 ^ -5` and from `10 ^ 16` on, and no text for what is no number. -/
def Layout.json : Layout :=
  { inFull := some (-5, 15), keepsPoint := true, positiveMark := "e+", tie := .toEven
    undefined := "null", infinite := "null", negativeInfinite := "null" }

def zeros (n : Nat) : String := String.ofList (List.replicate n '0')

def withPlaces (digits : String) (places : Nat) : String :=
  let cs := digits.toList
  let padded := List.replicate (places + 1 - cs.length) '0' ++ cs
  let whole := padded.length - places
  if places = 0 then String.ofList padded
  else String.ofList (padded.take whole ++ '.' :: padded.drop whole)

def Scaled.inFull (d : Scaled) (keepsPoint : Bool) : String :=
  if 0 ≤ d.exponent then
    toString d.digits ++ (if d.digits = 0 then "" else zeros d.exponent.toNat) ++
      (if keepsPoint then ".0" else "")
  else withPlaces (toString d.digits) (-d.exponent).toNat

def Scaled.scientific (d : Scaled) (positiveMark : String) : String :=
  let digits := (toString d.digits).toList
  let exponent := d.exponent + ((digits.length : Int) - 1)
  let significand := match digits with
    | [] => ""
    | [c] => String.singleton c
    | c :: rest => String.ofList (c :: '.' :: rest)
  significand ++ (if exponent < 0 then "e-" ++ toString (-exponent).toNat
    else positiveMark ++ toString exponent.toNat)

def Layout.write (l : Layout) (d : Scaled) : String :=
  let leading := d.exponent + (((toString d.digits).length : Int) - 1)
  match l.inFull with
  | none => d.inFull l.keepsPoint
  | some (first, last) =>
    if first ≤ leading ∧ leading ≤ last then d.inFull l.keepsPoint
    else d.scientific l.positiveMark

def Layout.text (l : Layout) (x : Float) : String :=
  match Binary64.decode x with
  | .undefined => l.undefined
  | .infinite negative => if negative then l.negativeInfinite else l.infinite
  | .finite negative m e =>
    (if negative then "-" else "") ++ l.write (shortest l.tie m e)

def text (x : Float) : String := Layout.plain.text x

/-- The text of a double with a set number of places; the exact value is rounded, a half to even. -/
def fixed (places : Nat) (x : Float) : String :=
  match Binary64.decode x with
  | .undefined => "NaN"
  | .infinite negative => if negative then "-inf" else "inf"
  | .finite negative m e =>
    let scaled := m * Nat.pow 10 places
    let n := if 0 ≤ e then scaled * Nat.pow 2 e.toNat else Binary64.roundShift scaled (-e).toNat
    (if negative then "-" else "") ++ withPlaces (toString n) places

end WorkloadSynth.Decimal
