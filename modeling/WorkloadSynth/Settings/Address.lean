import WorkloadSynth.Decimal.Reading

/-!
Addresses of settings.

The name of a setting is an address: after a first name come steps to an entry of a table (`.name`)
and to an item of a list (`[2]`, or `[-1]` from the end).  `Address.ofName` reads it; a text that
does not read as an address is itself the name of a setting.
-/

set_option autoImplicit false

namespace WorkloadSynth

inductive Address.Step where
  | entry (name : String)
  /-- An item by its position; a position below zero counts from the end. -/
  | item (position : Int)
deriving DecidableEq, Repr

structure Address where
  name : String
  steps : List Address.Step
deriving DecidableEq, Repr

namespace Address

def isNameChar (c : Char) : Bool := c.isAlphanum || c = ' ' || c = '_' || c = '-'

def name? (cs : List Char) : Option (String × List Char) :=
  let name := cs.takeWhile isNameChar
  if name = [] then none else some (String.ofList name, cs.drop name.length)

def skipBlanks (cs : List Char) : List Char := cs.dropWhile fun c => c = ' ' || c = '\t'

def maxPosition : Nat := 0x7fffffffffffffff

def position? (cs : List Char) : Option (Int × List Char) :=
  let (negative, cs) := match skipBlanks cs with
    | '-' :: rest => (true, rest)
    | cs => (false, cs)
  let digits := cs.takeWhile Decimal.isDigit
  let n := Decimal.ofDigits digits
  match skipBlanks (cs.drop digits.length) with
  | ']' :: rest =>
    if digits = [] ∨ (if negative then maxPosition + 1 else maxPosition) < n then none
    else some (if negative then -(n : Int) else n, rest)
  | _ => none

def stepsFrom : (fuel : Nat) → List Char → Option (List Step)
  | _, [] => some []
  | 0, _ => none
  | fuel + 1, '.' :: rest => do
    let (name, rest) ← name? rest
    let steps ← stepsFrom fuel rest
    some (.entry name :: steps)
  | fuel + 1, '[' :: rest => do
    let (position, rest) ← position? rest
    let steps ← stepsFrom fuel rest
    some (.item position :: steps)
  | _ + 1, _ => none

def read? (text : String) : Option Address := do
  let (name, rest) ← name? text.toList
  let steps ← stepsFrom rest.length rest
  some ⟨name, steps⟩

def ofName (name : String) : Address := (read? name).getD ⟨name, []⟩

end Address

end WorkloadSynth
