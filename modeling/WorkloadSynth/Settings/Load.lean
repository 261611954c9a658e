import WorkloadSynth.Settings.Basic
import WorkloadSynth.Storage.Host

/-!
Loading settings: finding the settings file, if one is asked for, and laying the environment over
it.

The file is taken under the name given or, if there is none, under that name with the extension of a
format after it; the extension says what format it is in.
-/

set_option autoImplicit false

namespace WorkloadSynth

inductive LoadFault where
  | missing (name : String)
  | unknownFormat (name : String)
  | broken (format : Layer.Format) (name : String)
  /-- An item where its list can have none, at which the reader of settings panics. -/
  | position (fault : PositionFault)
  | setting (fault : SettingFault)
deriving DecidableEq, Repr

def LoadFault.message : LoadFault → String
  | missing name => "configuration file \"" ++ name ++ "\" not found"
  | unknownFormat name =>
    "configuration file \"" ++ name ++ "\" is not of a registered file format"
  | broken format name => "invalid " ++ format.extension ++ " in " ++ name
  | position fault => fault.message
  | setting fault => fault.message

namespace Layer

def Format.ofPath? (p : Path) : Option Format :=
  Format.all.find? fun f => p.extension? = some f.extension

structure Source where
  path : Path
  format : Format
  text : String

variable {m : Type → Type} [Monad m]

def firstFile (host : Host m) : List (Path × Format) → m (Option Source)
  | [] => pure none
  | (p, format) :: rest => do
    match ← host.readText p with
    | some text => pure (some ⟨p, format, text⟩)
    | none => firstFile host rest

def findFile (host : Host m) (p : Path) : m (Except LoadFault Source) := do
  match ← host.readText p with
  | some text =>
    match Format.ofPath? p with
    | some format => pure (.ok ⟨p, format, text⟩)
    | none => pure (.error (.unknownFormat (p.under (← host.home)).text))
  | none => do
    let candidates :=
      if p.fileName?.isSome then Format.all.map fun f => (p.appendExtension f.extension, f) else []
    match ← firstFile host candidates with
    | some source => pure (.ok source)
    | none => pure (.error (.missing p.text))

/-- The layer of a settings file, which messages name by its path from the working directory. -/
def load (host : Host m) (p : Path) : m (Except LoadFault Layer) := do
  match ← findFile host p with
  | .error fault => pure (.error fault)
  | .ok source => do
    let name := (source.path.seenFrom (← host.home)).text
    match ofFile? source.format name source.text with
    | some layer => pure (.ok layer)
    | none => pure (.error (.broken source.format name))

end Layer

namespace Settings

/-- What a file's layer, if there is one, comes to under an environment. -/
def entries (env : Environment) (file : Option Layer) : Except PositionFault Entries := do
  let below ← (file.getD []).onto []
  (Layer.ofEnvironment env).onto below

def combine (env : Environment) (file : Option Layer) : Except LoadFault Settings :=
  match entries env file with
  | .error fault => .error (.position fault)
  | .ok entries =>
    match ofEntries entries with
    | .ok s => .ok s
    | .error fault => .error (.setting fault)

variable {m : Type → Type} [Monad m]

def load (host : Host m) (file : Option Path) (env : Environment) :
    m (Except LoadFault Settings) := do
  match file with
  | none => pure (combine env none)
  | some p => do
    match ← Layer.load host p with
    | .error fault => pure (.error fault)
    | .ok layer => pure (combine env (some layer))

end Settings

end WorkloadSynth
