/-!
Counts by name, in the order of the names.

A tally is a list of names with a count each, sorted and without repetition.  `add` counts one more
of a name and `touch` makes sure that a name is listed.
-/

set_option autoImplicit false

namespace WorkloadSynth

abbrev Tally := List (String × Nat)

namespace Tally

def count (t : Tally) (name : String) : Nat := ((t.find? (·.1 = name)).map (·.2)).getD 0

/-- Adds to the count of a name, which is listed in its place if it was not. -/
def addMany (amount : Nat) (name : String) : Tally → Tally
  | [] => [(name, amount)]
  | (other, n) :: rest =>
    if name = other then (other, n + amount) :: rest
    else if name < other then (name, amount) :: (other, n) :: rest
    else (other, n) :: addMany amount name rest

def add (t : Tally) (name : String) : Tally := addMany 1 name t

def touch (t : Tally) (name : String) : Tally := addMany 0 name t

def total (t : Tally) : Nat := t.foldr (fun p n => p.2 + n) 0

end Tally

end WorkloadSynth
