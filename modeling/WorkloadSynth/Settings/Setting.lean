import WorkloadSynth.Decimal.Layout
import WorkloadSynth.Decimal.Reading
import WorkloadSynth.Json.Value
import WorkloadSynth.Number.Natural
import WorkloadSynth.Text.Blank
import WorkloadSynth.Text.Quoted

/-!
Settings as they are written, and what they mean as a value of a wanted type.

A `Setting` is what a file or a variable holds, with the place it comes from, if it has one.
`toNatural`, `toFloat`, `toText` and `toTexts` convert it generously (a text may spell a number, a
number may stand where a text is wanted) or refuse it with a `SettingFault`, whose message names the
key and the place.
-/

set_option autoImplicit false

namespace WorkloadSynth

inductive RawValue where
  | null
  | bool (b : Bool)
  | integer (i : Int)
  | float (x : Float)
  | text (s : String)

inductive Origin where
  | environment
  | file (name : String)
deriving DecidableEq, Repr

def Origin.text : Origin → String
  | environment => "the environment"
  | file name => name

inductive Setting where
  | single (value : RawValue) (origin : Option Origin)
  | list (items : List Setting) (origin : Option Origin)
  | table (entries : List (String × Setting)) (origin : Option Origin)

inductive SettingFault where
  | wrongSort (found wanted key : String) (origin : Option Origin)
  | noList (found : String)
deriving DecidableEq, Repr

def SettingFault.message : SettingFault → String
  | wrongSort found wanted key origin =>
    "invalid type: " ++ found ++ ", expected " ++ wanted ++ " for key \x60" ++ key ++ "\x60" ++
      origin.elim "" fun o => " in " ++ o.text
  | noList found => "invalid type: " ++ found ++ ", expected a sequence"

namespace RawValue

def inTicks (s : String) : String := "\x60" ++ s ++ "\x60"

/-- How a message names a value where a single value is wanted. -/
def sort : RawValue → String
  | null => "unit value"
  | bool b => "boolean " ++ inTicks (toString b)
  | integer i => "64-bit integer " ++ inTicks (toString i)
  | float x => "floating point " ++ inTicks (Decimal.text x)
  | text s => "string " ++ Text.quoted s

def pointed (x : Float) : String :=
  let s := Decimal.text x
  if x.isFinite ∧ ¬ s.toList.contains '.' then s ++ ".0" else s

/-- How a message names a value where a list is wanted. -/
def sortInList : RawValue → String
  | integer i => "integer " ++ inTicks (toString i)
  | float x => "floating point " ++ inTicks (pointed x)
  | v => v.sort

def switch? (s : String) : Option Bool :=
  let word := Text.lower s
  if word = "true" ∨ word = "on" ∨ word = "yes" then some true
  else if word = "false" ∨ word = "off" ∨ word = "no" then some false
  else none

def text? : RawValue → Option String
  | null => none
  | bool b => some (toString b)
  | integer i => some (toString i)
  | float x => some (Decimal.text x)
  | text s => some s

end RawValue

namespace Setting

def origin? : Setting → Option Origin
  | single _ o | list _ o | table _ o => o

def sort : Setting → String
  | single v _ => v.sort
  | list .. => "sequence"
  | table .. => "map"

def refuse {α : Type} (s : Setting) (key wanted : String) : Except SettingFault α :=
  .error (.wrongSort s.sort wanted key s.origin?)

def toNatural (s : Setting) (key : String) : Except SettingFault Nat :=
  match s with
  | single (.bool b) _ => .ok b.toNat
  | single (.integer i) _ =>
    if 0 ≤ i then .ok i.toNat else s.refuse key "an unsigned 64 bit or less integer"
  | single (.float x) _ => .ok (Binary64.toNatural x)
  | single (.text t) _ =>
    match RawValue.switch? t, Decimal.readNatural? t with
    | some b, _ => .ok b.toNat
    | none, some n => .ok n
    | none, none => s.refuse key "an integer"
  | _ => s.refuse key "an integer"

def ofBool (b : Bool) : Float := if b then 1.0 else 0.0

def ofInteger (i : Int) : Float :=
  if i < 0 then -Binary64.ofNat i.natAbs else Binary64.ofNat i.natAbs

def toFloat (s : Setting) (key : String) : Except SettingFault Float :=
  match s with
  | single (.bool b) _ => .ok (ofBool b)
  | single (.integer i) _ => .ok (ofInteger i)
  | single (.float x) _ => .ok x
  | single (.text t) _ =>
    match RawValue.switch? t, Decimal.readFloat? t with
    | some b, _ => .ok (ofBool b)
    | none, some x => .ok x
    | none, none => s.refuse key "a floating point"
  | _ => s.refuse key "a floating point"

def text? : Setting → Option String
  | single v _ => v.text?
  | _ => none

def toText (s : Setting) (key : String) : Except SettingFault String :=
  match s.text? with
  | some t => .ok t
  | none => s.refuse key "a string"

def itemKey (key : String) (index : Nat) : String := key ++ "[" ++ toString index ++ "]"

def textsFrom (key : String) : (index : Nat) → List Setting → Except SettingFault (List String)
  | _, [] => .ok []
  | index, s :: rest => do
    let t ← s.toText (itemKey key index)
    let others ← textsFrom key (index + 1) rest
    pure (t :: others)

def toTexts (s : Setting) (key : String) : Except SettingFault (List String) :=
  match s with
  | list items _ => textsFrom key 0 items
  | single v _ => .error (.noList v.sortInList)
  | s => .error (.noList s.sort)

/-- A value of a document as a setting, all parts of which come from one place. -/
def ofJson (origin : Origin) : Json → Setting
  | .null => single .null origin
  | .bool b => single (.bool b) origin
  | .int i => single (.integer i) origin
  | .float x => single (.float x) origin
  | .str s => single (.text s) origin
  | .arr items => list (ofItems items) origin
  | .obj fields => table (ofFields fields) origin
where
  ofItems : List Json → List Setting
    | [] => []
    | v :: rest => ofJson origin v :: ofItems rest
  ofFields : List (String × Json) → List (String × Setting)
    | [] => []
    | (name, v) :: rest => (name, ofJson origin v) :: ofFields rest

end Setting

end WorkloadSynth
