import WorkloadSynth.Decimal.Reading

/-!
Dates and times of day in the line-oriented format, which count as texts.

A moment is a date, a time of day, or both, and then perhaps with its distance from universal time.
Its text has a `T` between date and time, and no zeros at the end of the fraction of a second.
-/

set_option autoImplicit false

namespace WorkloadSynth.Toml.Moment

abbrev Reader := List Char → Option (List Char × List Char)

def number (width low high : Nat) : Reader := fun cs =>
  let digits := cs.take width
  let n := Decimal.ofDigits digits
  if digits.length = width ∧ digits.all Decimal.isDigit ∧ low ≤ n ∧ n ≤ high then
    some (digits, cs.drop width)
  else none

def mark (c : Char) : Reader
  | [] => none
  | d :: rest => if d = c then some ([c], rest) else none

def isLeapYear (year : Nat) : Bool :=
  year % 4 = 0 && (year % 100 ≠ 0 || year % 400 = 0)

def daysOfMonth (year month : Nat) : Nat :=
  if month = 2 then (if isLeapYear year then 29 else 28)
  else if month ∈ [4, 6, 9, 11] then 30
  else 31

def date : Reader := fun cs => do
  let (year, rest) ← number 4 0 9999 cs
  let (_, rest) ← mark '-' rest
  let (month, rest) ← number 2 1 12 rest
  let (_, rest) ← mark '-' rest
  let last := daysOfMonth (Decimal.ofDigits year) (Decimal.ofDigits month)
  let (day, rest) ← number 2 1 last rest
  some (year ++ '-' :: month ++ '-' :: day, rest)

def precision : Nat := 9

def fraction : List Char → List Char × List Char
  | '.' :: rest =>
    let digits := rest.takeWhile Decimal.isDigit
    let kept := ((digits.take precision).reverse.dropWhile (· = '0')).reverse
    if digits = [] then ([], '.' :: rest)
    else (if kept = [] then [] else '.' :: kept, rest.drop digits.length)
  | cs => ([], cs)

def time : Reader := fun cs => do
  let (hour, rest) ← number 2 0 23 cs
  let (_, rest) ← mark ':' rest
  let (minute, rest) ← number 2 0 59 rest
  let (_, rest) ← mark ':' rest
  let (second, rest) ← number 2 0 60 rest
  let (part, rest) := fraction rest
  some (hour ++ ':' :: minute ++ ':' :: second ++ part, rest)

/-- The distance from universal time, if it is given; no distance has a plus sign. -/
def offset : List Char → List Char × List Char
  | 'Z' :: rest | 'z' :: rest => (['Z'], rest)
  | sign :: rest =>
    let read := do
      let (hour, rest) ← number 2 0 23 rest
      let (_, rest) ← mark ':' rest
      let (minute, rest) ← number 2 0 59 rest
      let distance := hour ++ ':' :: minute
      let sign := if distance.all fun c => c = '0' || c = ':' then '+' else sign
      some (sign :: distance, rest)
    match read with
    | some (distance, rest') =>
      if sign = '+' ∨ sign = '-' then (distance, rest') else ([], sign :: rest)
    | none => ([], sign :: rest)
  | [] => ([], [])

def dateTime : Reader := fun cs => do
  let (day, rest) ← date cs
  match rest with
  | c :: tail =>
    if c = 'T' ∨ c = 't' ∨ c = ' ' then
      match time tail with
      | some (clock, tail) =>
        let (distance, tail) := offset tail
        some (day ++ 'T' :: clock ++ distance, tail)
      | none => some (day, rest)
    else some (day, rest)
  | [] => some (day, rest)

def read? (cs : List Char) : Option (String × List Char) := do
  let (s, rest) ← (dateTime cs).or (time cs)
  some (String.ofList s, rest)

end WorkloadSynth.Toml.Moment
