/-!
Sets of characters as tables.

A table lists, in ascending order, the code points at which membership changes; the first of them is
in the set.
-/

set_option autoImplicit false

namespace WorkloadSynth.Text

/-- Whether a code point is in a set; `start` says whether the set begins before the table does. -/
def isInside (start : Bool) (n : Nat) : (changes : List Nat) → Bool
  | [] => start
  | c :: rest => if c ≤ n then isInside (!start) n rest else start

end WorkloadSynth.Text
