import WorkloadSynth.Json.Shape

/-!
Reading any JSON text.

Arrays and objects may be inside each other up to a fixed depth.  Of two entries of an object with
one name the later one counts, in the place of the earlier one.
-/

set_option autoImplicit false

namespace WorkloadSynth.Json

def maxDepth : Nat := 127

def setField (name : String) (v : Json) : List (String × Json) → List (String × Json)
  | [] => [(name, v)]
  | (other, w) :: rest =>
    if other = name then (name, v) :: rest else (other, w) :: setField name v rest

/-- A number as a value; whole numbers beyond 64 bits with sign are floats. -/
def ofNumber : Number → Json
  | .natural n => if n < Nat.pow 2 63 then .int n else .float (Binary64.ofNat n)
  | .negative size => .int (-(size : Int))
  | .float x => .float x

mutual

/-- Reads a value inside at most `depth` more brackets; every step takes a character. -/
def readFrom : (steps depth : Nat) → Reader Json
  | 0, _, _ => .error .truncated
  | steps + 1, depth, cs =>
    match skipBlanks cs with
    | [] => .error .truncated
    | 'n' :: rest => do
      let rest ← expectWord ['u', 'l', 'l'] rest
      pure (.null, rest)
    | 't' :: rest => do
      let rest ← expectWord ['r', 'u', 'e'] rest
      pure (.bool true, rest)
    | 'f' :: rest => do
      let rest ← expectWord ['a', 'l', 's', 'e'] rest
      pure (.bool false, rest)
    | '"' :: rest => do
      let (s, rest) ← quoted rest
      pure (.str s, rest)
    | '[' :: rest =>
      match depth with
      | 0 => .error .malformed
      | depth + 1 => do
        let (items, rest) ← readItems steps depth true rest
        let rest ← endArray rest
        pure (.arr items, rest)
    | '{' :: rest =>
      match depth with
      | 0 => .error .malformed
      | depth + 1 => do
        let (fields, rest) ← readFields steps depth [] true rest
        pure (.obj fields, rest.drop 1)
    | c :: rest =>
      if c = '-' ∨ Decimal.isDigit c then do
        let (n, rest) ← Number.read (c :: rest)
        pure (ofNumber n, rest)
      else .error .malformed

def readItems : (steps depth : Nat) → (first : Bool) → Reader (List Json)
  | 0, _, _, _ => .error .truncated
  | steps + 1, depth, first, cs => do
    let (more, cs) ← nextItem ']' first cs
    if more then
      let (v, cs) ← readFrom steps depth cs
      let (others, cs) ← readItems steps depth false cs
      pure (v :: others, cs)
    else pure ([], cs)

def readFields : (steps depth : Nat) → (read : List (String × Json)) → (first : Bool) →
    Reader (List (String × Json))
  | 0, _, _, _, _ => .error .truncated
  | steps + 1, depth, read, first, cs => do
    let (more, cs) ← nextItem '}' first cs
    if more then
      match cs with
      | '"' :: rest =>
        let (name, rest) ← quoted rest
        let rest ← expectColon rest
        let (v, rest) ← readFrom steps depth rest
        readFields steps depth (setField name v read) false rest
      | _ => .error .malformed
    else pure (read, cs)

end

def ofText? (text : String) : Except Fault Json := do
  let cs := text.toList
  let (v, rest) ← readFrom (2 * cs.length + 2) maxDepth cs
  match skipBlanks rest with
  | [] => pure v
  | _ => .error .malformed

end WorkloadSynth.Json
