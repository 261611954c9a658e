import WorkloadSynth.CommandLine.Arguments
import WorkloadSynth.Dataset.Production
import WorkloadSynth.Settings.Load
import WorkloadSynth.Storage.Output

/-!
A run of the program, from its arguments to its exit code.

Settings are loaded and checked before anything is made, so a run that is refused leaves no trace.
Then the dataset is produced, saved, and its digest printed; metrics are written last.  The metrics
are those of the process, which a run finds and adds to.  What stops a run is a `RunFault`, whose
message says what was being done and then, cause by cause, why it failed.  A panic is a fault here like
any other, but it ends the process with an exit code of its own and without the program's notice.
-/

set_option autoImplicit false

namespace WorkloadSynth

inductive RunFault where
  | settings (fault : LoadFault)
  | recipe (fault : RecipeFault)
  | production (fault : RangeFault)
  | output (path : Path) (fault : OutputFault)
  | metrics (path : Path) (fault : FileFault)
deriving DecidableEq

/-- Whether a fault is a panic: the computation breaks off where it arises, and the program answers
nothing.  Its words, which name a place in the code, are not modelled; `message` only says what is wrong. -/
def RunFault.isPanic : RunFault → Bool
  | settings (.position _) => true
  | production _ => true
  | _ => false

def RunFault.message : RunFault → String
  | settings (.position fault) => fault.message
  | settings fault => "Failed to load configuration: " ++ fault.message
  | recipe fault => "Invalid generator configuration: " ++ fault.message
  | production _ => "bounds out of order"
  | output path fault =>
    "Failed to write dataset to " ++ path.text ++ ": " ++ fault.message ++ ": " ++ fault.cause
  | metrics path fault =>
    "Failed to write metrics to " ++ path.text ++ ": " ++ fault.message

namespace Program

def name : String := "resource-datagen"

def version : String := "0.1.0"

structure Surroundings where
  environment : Environment
  run : String
  isTerminal : Bool

namespace Surroundings

def asks (s : Surroundings) (name : String) : Option Bool :=
  (s.environment.find? (·.1 = name)).map fun v => v.2 ≠ "0"

/-- Whether the output is coloured.  Colour can be forced or refused; otherwise a terminal has it,
unless it is asked not to. -/
def colour (s : Surroundings) : Bool :=
  if s.asks "CLICOLOR_FORCE" = some true then true
  else if (s.asks "NO_COLOR").isSome then false
  else s.isTerminal && (s.asks "CLICOLOR").getD true

end Surroundings

variable {m : Type → Type} [Monad m]

def note (host : Host m) (s : Surroundings) (entry : Entry) : m Unit :=
  host.note ⟨some s.run, entry⟩

def loadSettings (host : Host m) (s : Surroundings) (a : Arguments) :
    m (Except RunFault Settings) := do
  match ← Settings.load host a.settingsFile s.environment with
  | .error fault => pure (.error (.settings fault))
  | .ok settings => pure (.ok (a.overrides.apply settings))

def checkRecipe (host : Host m) (s : Surroundings) (settings : Settings) :
    m (Except RunFault CheckedRecipe) := do
  match settings.recipe with
  | .error fault => do
    note host s (.rejected fault.message)
    pure (.error (.recipe fault))
  | .ok recipe => pure (.ok recipe)

structure Product where
  dataset : Dataset Float
  digest : Digest

def make (host : Host m) (s : Surroundings) (assembly : Assembly) :
    StateT Metrics m (Except RunFault Product) := do
  match ← (assembly.produce host.clock ⟨some (← get), .ofRun s.run⟩ : m _) with
  | .error fault => pure (.error (.production fault))
  | .ok (dataset, observed) => do
    modify observed.metrics.getD
    (observed.journal.events.toList.forM host.note : m Unit)
    pure (.ok ⟨dataset, .ofDataset dataset assembly.recipe.val (← host.now)⟩)

def store (host : Host m) (s : Surroundings) (output : Path) (p : Product) :
    StateT Metrics m (Except RunFault Unit) := do
  let begun ← host.clock
  match ← host.save output p.dataset p.digest with
  | .error fault => pure (.error (.output output fault))
  | .ok () => do
    let seconds := (← host.clock) - begun
    modify (·.observeWrite seconds)
    (note host s (.written output.text p.dataset.size seconds) : m Unit)
    pure (.ok ())

def writeMetrics (host : Host m) (file : Option Path) :
    StateT Metrics m (Except RunFault Unit) := do
  match file with
  | none => pure (.ok ())
  | some path => do
    match ← host.writeFile path (.text (← get).exposition) with
    | .error fault => pure (.error (.metrics path fault))
    | .ok () => pure (.ok ())

def carryOut (host : Host m) (s : Surroundings) (a : Arguments) (output : Path)
    (recipe : CheckedRecipe) : StateT Metrics m (Except RunFault Unit) := do
  host.note ⟨none, .configured output.text⟩
  match Assembly.ofRecipe recipe.val with
  | .error fault => pure (.error (.recipe fault))
  | .ok assembly => do
    match ← make host s assembly with
    | .error fault => pure (.error fault)
    | .ok product => do
      match ← store host s output product with
      | .error fault => pure (.error fault)
      | .ok () => do
        host.print (Console.digest s.colour a.format product.digest output)
        writeMetrics host a.metricsFile

/-- A run under arguments, which goes on in a process that may have kept metrics before. -/
def run (host : Host m) (s : Surroundings) (a : Arguments) :
    StateT Metrics m (Except RunFault Unit) := do
  match ← (loadSettings host s a : m _) with
  | .error fault => pure (.error fault)
  | .ok settings => do
    match ← (checkRecipe host s settings : m _) with
    | .error fault => pure (.error fault)
    | .ok recipe => carryOut host s a settings.output recipe

def usage : String :=
  "Usage: " ++ name ++ " [OPTIONS]\n\nOptions:\n" ++
    String.join (Flag.all.map fun f => "  --" ++ f.name ++ " <VALUE>\n") ++
    "  --help\n  --version\n"

def start (host : Host m) (s : Surroundings) (words : List String) : m UInt32 := do
  match Arguments.read words s.environment with
  | .error fault => do
    host.report ("error: " ++ fault.message ++ "\n\n" ++ usage)
    pure 2
  | .ok .version => do
    host.print (name ++ " " ++ version ++ "\n")
    pure 0
  | .ok .help => do
    host.print usage
    pure 0
  | .ok (.run a) => do
    note host s (.started version)
    match ← (run host s a).run' .empty with
    | .ok () => pure 0
    | .error fault =>
      if fault.isPanic then do
        host.report ("panicked: " ++ fault.message ++ "\n")
        pure 101
      else do
        host.report (Console.notice s.colour .failure fault.message)
        pure 1

end Program

end WorkloadSynth
