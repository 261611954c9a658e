/-!
Reading numbers from text.

`readInteger?` and `readNatural?` take an optional sign and digits, within a range.  `readFloat?`
takes a decimal with an optional fraction and exponent and rounds it to the nearest double; it also
knows the names of infinity and of the undefined value.  Nothing may stand before or after.
-/

set_option autoImplicit false

namespace WorkloadSynth.Decimal

def isDigit (c : Char) : Bool := '0' ≤ c && c ≤ '9'

def digitValue (c : Char) : Nat := c.toNat - '0'.toNat

def ofDigitsFrom (start : Nat) (digits : List Char) : Nat :=
  digits.foldl (fun n c => 10 * n + digitValue c) start

def ofDigits (digits : List Char) : Nat := ofDigitsFrom 0 digits

def allDigits? (cs : List Char) : Option Nat :=
  if cs ≠ [] ∧ cs.all isDigit then some (ofDigits cs) else none

def splitSign : List Char → Bool × List Char
  | '-' :: rest => (true, rest)
  | '+' :: rest => (false, rest)
  | rest => (false, rest)

def readInteger? (s : String) : Option Int := do
  let (negative, rest) := splitSign s.toList
  let n ← allDigits? rest
  let i : Int := if negative then -(n : Int) else n
  if -0x8000000000000000 ≤ i ∧ i < 0x8000000000000000 then some i else none

def readNatural? (s : String) : Option Nat := do
  let rest := match s.toList with
    | '+' :: rest => rest
    | cs => cs
  let n ← allDigits? rest
  if n < Nat.pow 2 64 then some n else none

/-- The double nearest to `digits · 10 ^ exponent`.  Exponents far outside the range of a double are
answered without forming the power. -/
def toFloat (digits : Nat) (exponent : Int) : Float :=
  let leading := (toString digits).length + exponent
  if digits = 0 ∨ leading < -400 then 0.0
  else if 400 < leading then 1.0 / 0.0
  else if 0 ≤ exponent then Float.ofScientific digits false exponent.toNat
  else Float.ofScientific digits true (-exponent).toNat

/-- An exponent mark with its number, or nothing at all. -/
def readExponent? : List Char → Option Int
  | [] => some 0
  | c :: rest =>
    if c = 'e' ∨ c = 'E' then do
      let (negative, digits) := splitSign rest
      let n ← allDigits? digits
      some (if negative then -(n : Int) else n)
    else none

def readUnsigned? (cs : List Char) : Option Float := do
  let whole := cs.takeWhile isDigit
  let rest := cs.dropWhile isDigit
  let (part, rest) := match rest with
    | '.' :: rest => (rest.takeWhile isDigit, rest.dropWhile isDigit)
    | rest => ([], rest)
  if whole.isEmpty && part.isEmpty then none
  else
    let exponent ← readExponent? rest
    some (toFloat (ofDigits (whole ++ part)) (exponent - (part.length : Int)))

def readFloat? (s : String) : Option Float := do
  let (negative, rest) := splitSign s.toList
  let name := String.ofList (rest.map Char.toLower)
  let magnitude ←
    if name = "inf" ∨ name = "infinity" then some (1.0 / 0.0)
    else if name = "nan" then some (0.0 / 0.0)
    else readUnsigned? rest
  some (if negative then -magnitude else magnitude)

end WorkloadSynth.Decimal
