import WorkloadSynth.Json.Reader
import WorkloadSynth.Settings.Entries
import WorkloadSynth.Settings.Toml.Document
import WorkloadSynth.Storage.Path

/-!
Layers of settings: what a file says and what the environment says.

A layer is a list of settings with their addresses, which are put over each other in turn.  Names
are compared in small letters.
-/

set_option autoImplicit false

namespace WorkloadSynth

abbrev Layer := List (Address × Setting)

abbrev Environment := List (String × String)

namespace Layer

/-- A setting under the address that its name spells. -/
def entry (name : String) (s : Setting) : Address × Setting :=
  (Address.ofName (Text.lowerKey name), s)

def onto (l : Layer) (entries : Entries) : Except PositionFault Entries :=
  l.foldlM (fun entries e => entries.putAt e.1 e.2) entries

def variableStart : String := "datagen_"

def listNames : List String := ["archetypes", "anomaly_kinds"]

def cutAtCommas : List Char → List (List Char)
  | [] => [[]]
  | c :: rest =>
    match cutAtCommas rest with
    | [] => [[c]]
    | first :: others => if c = ',' then [] :: first :: others else (c :: first) :: others

def splitList (s : String) : List String := (cutAtCommas s.toList).map String.ofList

def fromEnvironment (v : RawValue) : Setting := .single v Origin.environment

/-- The setting that a variable spells: a truth value or a number if it reads as one, otherwise a
list or a text. -/
def variableSetting (name value : String) : Setting :=
  let word := Text.lower value
  if word = "true" then fromEnvironment (.bool true)
  else if word = "false" then fromEnvironment (.bool false)
  else match Decimal.readInteger? value, Decimal.readFloat? value with
    | some i, _ => fromEnvironment (.integer i)
    | none, some x => fromEnvironment (.float x)
    | none, none =>
      if name ∈ listNames then
        .list ((splitList value).map fun s => fromEnvironment (.text s)) Origin.environment
      else fromEnvironment (.text value)

/-- The setting of a variable, if it is one of this program's. -/
def ofVariable? (assignment : String × String) : Option (Address × Setting) :=
  let name := (Text.lowerKey assignment.1).toList
  let start := variableStart.toList
  if start.isPrefixOf name then
    let name := String.ofList (name.drop start.length)
    some (entry name (variableSetting name assignment.2))
  else none

def ofEnvironment (env : Environment) : Layer := env.filterMap ofVariable?

inductive Format where
  | toml
  | json
deriving DecidableEq, Repr

def Format.all : List Format := [toml, json]

def Format.extension : Format → String
  | toml => "toml"
  | json => "json"

def Format.read? : Format → String → Option (List (String × Json))
  | toml, text => Toml.Document.read? text
  | json, text =>
    match Json.ofText? text with
    | .ok (.obj fields) => some fields
    | _ => none

def ofFile? (format : Format) (name text : String) : Option Layer := do
  let entries ← format.read? text
  some (entries.map fun e => entry e.1 (Setting.ofJson (.file name) e.2))

end Layer

end WorkloadSynth
