import WorkloadSynth.Json.Token
import WorkloadSynth.Json.Value

/-!
Values of the line-oriented format that stand without quotes or brackets: whole numbers in four
bases, decimals, `true` and `false`.
-/

set_option autoImplicit false

namespace WorkloadSynth.Toml

def joinDigits? (isDigit : Char → Bool) : List Char → Option (List Char)
  | [] => none
  | [c] => if isDigit c then some [c] else none
  | c :: '_' :: rest => if isDigit c then (joinDigits? isDigit rest).map (c :: ·) else none
  | c :: rest => if isDigit c then (joinDigits? isDigit rest).map (c :: ·) else none

/-- Decimal digits of which the first is not zero, unless it is alone. -/
def plainDigits? (cs : List Char) : Option (List Char) := do
  let digits ← joinDigits? Decimal.isDigit cs
  if 1 < digits.length ∧ digits.head? = some '0' then none else some digits

def isBaseDigit (base : Nat) (c : Char) : Bool :=
  match Json.hexValue? c with
  | some d => d < base
  | none => false

def based? (base : Nat) (cs : List Char) : Option Int := do
  let digits ← joinDigits? (isBaseDigit base) cs
  some (digits.foldl (fun n c => base * n + (Json.hexValue? c).getD 0) 0 : Nat)

def inRange (i : Int) : Option Json :=
  if -0x8000000000000000 ≤ i ∧ i < 0x8000000000000000 then some (.int i) else none

def decimalTail? (cs : List Char) : Option (List Char) :=
  match cs with
  | '.' :: rest => do
    let part := rest.takeWhile fun c => Decimal.isDigit c || c = '_'
    let digits ← joinDigits? Decimal.isDigit part
    let tail ← exponent? (rest.drop part.length)
    some ('.' :: digits ++ tail)
  | cs => exponent? cs
where
  exponent? : List Char → Option (List Char)
    | [] => some []
    | c :: rest =>
      if c = 'e' ∨ c = 'E' then do
        let (negative, digits) := Decimal.splitSign rest
        let digits ← joinDigits? Decimal.isDigit digits
        some ('e' :: (if negative then ['-'] else []) ++ digits)
      else none

def unsigned? (negative : Bool) (cs : List Char) : Option Json := do
  let whole := cs.takeWhile fun c => Decimal.isDigit c || c = '_'
  let digits ← plainDigits? whole
  match cs.drop whole.length with
  | [] =>
    let n := Decimal.ofDigits digits
    inRange (if negative then -(n : Int) else n)
  | rest => do
    let tail ← decimalTail? rest
    let x ← Decimal.readUnsigned? (digits ++ tail)
    if x.isInf ∧ ¬ negative then none else some (.float (if negative then -x else x))

def word? (cs : List Char) : Option Json :=
  match cs with
  | '0' :: 'x' :: rest => (based? 16 rest).bind inRange
  | '0' :: 'o' :: rest => (based? 8 rest).bind inRange
  | '0' :: 'b' :: rest => (based? 2 rest).bind inRange
  | _ =>
    if cs = ['t', 'r', 'u', 'e'] then some (.bool true)
    else if cs = ['f', 'a', 'l', 's', 'e'] then some (.bool false)
    else
      let (negative, rest) := Decimal.splitSign cs
      if rest = ['i', 'n', 'f'] then some (.float (if negative then -(1.0 / 0.0) else 1.0 / 0.0))
      else if rest = ['n', 'a', 'n'] then some (.float (0.0 / 0.0))
      else unsigned? negative rest

def isWordChar (c : Char) : Bool :=
  c.isAlphanum || c = '_' || c = '-' || c = '+' || c = '.'

end WorkloadSynth.Toml
