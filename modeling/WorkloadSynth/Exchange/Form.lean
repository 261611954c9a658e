import WorkloadSynth.Json.Shape

/-!
The JSON form of a type: the shape its values have in a text, the value that stands for each of
them, and the way back.  `write` and `read` go between values and compact text.
-/

set_option autoImplicit false

namespace WorkloadSynth

class Exchange (α : Type) where
  shape : Json.Shape
  toJson : α → Json
  ofJson? : Json → Option α

namespace Exchange

variable {α β : Type}

def write [Exchange α] (x : α) : String := (toJson x).compact

def read [Exchange α] (text : String) : Except Json.Fault α := do
  let v ← (shape α).read text
  match ofJson? v with
  | some x => pure x
  | none => .error .mismatch

instance : Exchange Float where
  shape := .number
  toJson := .float
  ofJson?
    | .float x => some x
    | _ => none

instance : Exchange Nat where
  shape := .natural
  toJson := Json.nat
  ofJson?
    | .int i => some i.toNat
    | _ => none

instance : Exchange UInt64 where
  shape := .natural
  toJson n := Json.nat n.toNat
  ofJson?
    | .int i => some (UInt64.ofNat i.toNat)
    | _ => none

instance [Exchange α] : Exchange (List α) where
  shape := .list (shape α)
  toJson xs := .arr (xs.map toJson)
  ofJson?
    | .arr items => items.mapM ofJson?
    | _ => none

instance [Exchange α] : Exchange (Option α) where
  shape := .optional (shape α)
  toJson
    | none => .null
    | some x => toJson x
  ofJson?
    | .null => some none
    | v => (ofJson? v).map some

@[reducible] def ofNames (all : List α) (name : α → String) : Exchange α where
  shape := .choice (all.map name)
  toJson x := .str (name x)
  ofJson?
    | .str s => all.find? (fun x => name x = s)
    | _ => none

@[reducible] def ofRow (names : List String) (toRow : α → List Float)
    (ofRow? : List Float → Option α) : Exchange α where
  shape := .record (names.map fun name => (name, .number))
  toJson x := .obj (names.zip ((toRow x).map Json.float))
  ofJson?
    | .obj fields => do ofRow? (← fields.mapM fun f => ofJson? f.2)
    | _ => none

end Exchange

end WorkloadSynth
