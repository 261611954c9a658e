import WorkloadSynth.Json.Skip
import WorkloadSynth.Json.Value

/-!
Reading JSON text that has to have a given shape.

`Shape.read` reads a value and checks it while it reads, so of two faults the one further left is
found.  What it gives back is in normal form: numbers are floats, naturals integers, choices texts
and records objects with their fields in order, an optional field that is missing being null.

A record may be written as an object, with its fields in any order and others between them, or as
the array of its fields in order.
-/

set_option autoImplicit false

namespace WorkloadSynth.Json

inductive Shape where
  | number
  | natural
  | choice (names : List String)
  | optional (shape : Shape)
  | list (shape : Shape)
  | record (fields : List (String × Shape))

def wrongSort (cs : List Char) : Fault :=
  let after : Except Fault (List Char) → Fault
    | .ok _ => .mismatch
    | .error fault => fault
  match skipBlanks cs with
  | [] => .truncated
  | '[' :: _ | '{' :: _ => .mismatch
  | '"' :: rest => after ((quoted rest).map (·.2))
  | 'n' :: rest => after (expectWord ['u', 'l', 'l'] rest)
  | 't' :: rest => after (expectWord ['r', 'u', 'e'] rest)
  | 'f' :: rest => after (expectWord ['a', 'l', 's', 'e'] rest)
  | c :: rest =>
    if c = '-' ∨ Decimal.isDigit c then after ((Number.read (c :: rest)).map (·.2))
    else .malformed

def readNumber : Reader Number := fun cs =>
  match skipBlanks cs with
  | c :: rest =>
    if c = '-' ∨ Decimal.isDigit c then Number.read (c :: rest) else .error (wrongSort (c :: rest))
  | [] => .error .truncated

def Number.toFloat : Number → Float
  | natural n => Binary64.ofNat n
  | negative size => -Binary64.ofNat size
  | float x => x

def readFloat : Reader Json := fun cs => do
  let (n, rest) ← readNumber cs
  pure (.float n.toFloat, rest)

def readNatural : Reader Json := fun cs => do
  let (n, rest) ← readNumber cs
  match n with
  | .natural n => pure (.nat n, rest)
  | _ => .error .mismatch

def readText : Reader String := fun cs =>
  match skipBlanks cs with
  | '"' :: rest => quoted rest
  | cs => .error (wrongSort cs)

def readNull (cs : List Char) : Except Fault (List Char) :=
  match skipBlanks cs with
  | 'n' :: rest => expectWord ['u', 'l', 'l'] rest
  | cs => .error (wrongSort cs)

def readName (names : List String) : Reader Json := fun cs => do
  let (name, rest) ← readText cs
  if name ∈ names then pure (.str name, rest) else .error .mismatch

def readChoice (names : List String) : Reader Json := fun cs =>
  match skipBlanks cs with
  | [] => .error .truncated
  | '"' :: rest => readName names ('"' :: rest)
  | '{' :: rest => do
    let (name, rest) ← readName names rest
    let rest ← expectColon rest
    let rest ← readNull rest
    match skipBlanks rest with
    | [] => .error .truncated
    | '}' :: rest => pure (name, rest)
    | _ => .error .malformed
  | _ => .error .malformed

def readOptional (item : Reader Json) : Reader Json := fun cs =>
  match skipBlanks cs with
  | 'n' :: rest => do
    let rest ← expectWord ['u', 'l', 'l'] rest
    pure (.null, rest)
  | cs => item cs

/-- Whether another entry follows inside a bracket, and the text from it on.  A comma has to stand
before every entry but the first, and nothing but an entry after it. -/
def nextItem (closing : Char) (first : Bool) : Reader Bool := fun cs =>
  match skipBlanks cs with
  | [] => .error .truncated
  | c :: rest =>
    if c = closing then .ok (false, c :: rest)
    else if first then .ok (true, c :: rest)
    else if c = ',' then
      match skipBlanks rest with
      | [] => .error .truncated
      | d :: rest => if d = closing then .error .malformed else .ok (true, d :: rest)
    else .error .malformed

def endArray (cs : List Char) : Except Fault (List Char) :=
  match skipBlanks cs with
  | [] => .error .truncated
  | ']' :: rest => .ok rest
  | _ => .error .malformed

def itemsFrom (item : Reader Json) : (steps : Nat) → List Json → Reader (List Json)
  | 0, _, _ => .error .truncated
  | steps + 1, read, cs => do
    let (more, cs) ← nextItem ']' read.isEmpty cs
    if more then
      let (v, rest) ← item cs
      itemsFrom item steps (v :: read) rest
    else pure (read, cs)

def readList (item : Reader Json) : Reader Json := fun cs =>
  match skipBlanks cs with
  | '[' :: rest => do
    let (read, rest) ← itemsFrom item (rest.length + 1) [] rest
    let rest ← endArray rest
    pure (.arr read.reverse, rest)
  | cs => .error (wrongSort cs)

structure Slot where
  name : String
  read : Reader Json
  absent : Option Json

def slotsInOrder (first : Bool) : List Slot → Reader (List (String × Json))
  | [], cs => .ok ([], cs)
  | slot :: slots, cs => do
    let (more, cs) ← nextItem ']' first cs
    if more then
      let (v, cs) ← slot.read cs
      let (others, cs) ← slotsInOrder false slots cs
      pure ((slot.name, v) :: others, cs)
    else .error .mismatch

/-- The fields of a record that is written as an object, as they come; each takes a character. -/
def slotsByName (slots : List Slot) :
    (steps : Nat) → (first : Bool) → List (String × Json) → Reader (List (String × Json))
  | 0, _, _, _ => .error .truncated
  | steps + 1, first, read, cs => do
    let (more, cs) ← nextItem '}' first cs
    if more then
      match cs with
      | '"' :: rest =>
        let (name, rest) ← quoted rest
        match slots.find? (·.name = name) with
        | none =>
          let rest ← expectColon rest
          let rest ← skipValue rest
          slotsByName slots steps false read rest
        | some slot =>
          if read.any (·.1 = name) then .error .mismatch
          else
            let rest ← expectColon rest
            let (v, rest) ← slot.read rest
            slotsByName slots steps false ((name, v) :: read) rest
      | _ => .error .malformed
    else pure (read, cs.drop 1)

def arrange (slots : List Slot) (read : List (String × Json)) :
    Except Fault (List (String × Json)) :=
  slots.mapM fun slot =>
    match read.find? (·.1 = slot.name), slot.absent with
    | some f, _ => .ok f
    | none, some v => .ok (slot.name, v)
    | none, none => .error .mismatch

def readRecord (slots : List Slot) : Reader Json := fun cs =>
  match skipBlanks cs with
  | '[' :: rest => do
    let (fields, rest) ← slotsInOrder true slots rest
    let rest ← endArray rest
    pure (.obj fields, rest)
  | '{' :: rest => do
    let (read, rest) ← slotsByName slots (rest.length + 1) true [] rest
    let fields ← arrange slots read
    pure (.obj fields, rest)
  | cs => .error (wrongSort cs)

namespace Shape

def absent : Shape → Option Json
  | optional _ => some .null
  | _ => none

mutual

def reader : Shape → Reader Json
  | number => readFloat
  | natural => readNatural
  | choice names => readChoice names
  | optional shape => readOptional (reader shape)
  | list shape => readList (reader shape)
  | record fields => readRecord (slots fields)

def slots : List (String × Shape) → List Slot
  | [] => []
  | (name, shape) :: rest => ⟨name, reader shape, absent shape⟩ :: slots rest

end

def read (shape : Shape) (text : String) : Except Fault Json := do
  let (v, rest) ← shape.reader text.toList
  match skipBlanks rest with
  | [] => pure v
  | _ => .error .malformed

end Shape

end WorkloadSynth.Json
