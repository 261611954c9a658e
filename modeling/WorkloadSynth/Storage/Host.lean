import WorkloadSynth.Report.Journal
import WorkloadSynth.Report.Timestamp
import WorkloadSynth.Storage.Volume

/-!
The host of a run: what a program may ask of the system it runs on.

A run is written over a `Host m` in any monad.  `Host.onWorld` is the host in memory, whose state is
a `World`: a volume, what was printed, and what was noted.  Its clocks stand still.
-/

set_option autoImplicit false

namespace WorkloadSynth

structure Host (m : Type → Type) where
  home : m (List String)
  readText : Path → m (Option String)
  isDirectory : Path → m Bool
  makeDirectory : Path → m (Except FileFault Unit)
  writeFile : Path → Content → m (Except FileFault Unit)
  print : String → m Unit
  report : String → m Unit
  note : Event → m Unit
  clock : m Float
  now : m Timestamp

structure World where
  volume : Volume
  printed : String
  reported : String
  events : Array Event

namespace World

def ofVolume (v : Volume) : World := ⟨v, "", "", #[]⟩

def onVolume (change : Volume → Except FileFault Volume) :
    StateM World (Except FileFault Unit) := fun w =>
  match change w.volume with
  | .ok v => (.ok (), { w with volume := v })
  | .error fault => (.error fault, w)

end World

namespace Host

def onWorld (now : Timestamp) : Host (StateM World) where
  home := do pure (← get).volume.home
  readText p := do
    match (← get).volume.file? p with
    | some (.text s) => pure (some s)
    | _ => pure none
  isDirectory p := do pure ((← get).volume.directory? p).isSome
  makeDirectory p := World.onVolume (·.makeDirectory p)
  writeFile p content := World.onVolume (·.writeFile p content)
  print s := modify fun w => { w with printed := w.printed ++ s }
  report s := modify fun w => { w with reported := w.reported ++ s }
  note e := modify fun w => { w with events := w.events.push e }
  clock := pure 0.0
  now := pure now

variable {m : Type → Type} [Monad m]

def ensureDirectory (host : Host m) (p : Path) : m (Except FileFault Unit) := do
  match ← host.makeDirectory p with
  | .ok () => pure (.ok ())
  | .error fault => do
    if ← host.isDirectory p then pure (.ok ()) else pure (.error fault)

/-- Makes a directory and those above it that are missing.  The directory comes with the parts of
its path from the last one back. -/
def ensureDirectories (host : Host m) (absolute : Bool) :
    (reversed : List String) → m (Except FileFault Unit)
  | [] => pure (.ok ())
  | last :: above => do
    let p := Path.ofParts absolute (last :: above).reverse
    match ← host.makeDirectory p with
    | .ok () => pure (.ok ())
    | .error .notFound => do
      match ← ensureDirectories host absolute above with
      | .error fault => pure (.error fault)
      | .ok () => host.ensureDirectory p
    | .error fault => do
      if ← host.isDirectory p then pure (.ok ()) else pure (.error fault)

end Host

end WorkloadSynth
