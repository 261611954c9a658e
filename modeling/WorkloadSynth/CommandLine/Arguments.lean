import WorkloadSynth.Report.Console
import WorkloadSynth.Settings.Basic

/-!
The command line.

Flags are read from left to right.  A flag has a long name, and some have a letter; its value stands
after an equals sign, right after the letter, or in the next word, which then must not look like a
flag.  A flag with a single value may be given once; a flag with a list may be repeated, and each of
its values is cut at commas.  There are no words beside flags and their values.
-/

set_option autoImplicit false

namespace WorkloadSynth

structure Arguments where
  settingsFile : Option Path
  overrides : Overrides
  format : Console.Format
  metricsFile : Option Path

inductive Flag where
  | settingsFile
  | sampleCount
  | traceLength
  | anomalyRatio
  | seed
  | stepHours
  | mode
  | archetypes
  | anomalies
  | output
  | format
  | metricsFile
deriving DecidableEq, Repr

inductive UsageFault where
  | unknownFlag (word : String)
  | unexpectedWord (word : String)
  | missingValue (flag : Flag)
  | repeated (flag : Flag)
  | badValue (flag : Flag) (value : String)
  | needlessValue (name : String)
deriving DecidableEq, Repr

namespace Flag

def all : List Flag :=
  [settingsFile, sampleCount, traceLength, anomalyRatio, seed, stepHours, mode, archetypes,
    anomalies, output, format, metricsFile]

def name : Flag → String
  | settingsFile => "config"
  | sampleCount => "samples"
  | traceLength => "seq-len"
  | anomalyRatio => "anomaly-ratio"
  | seed => "seed"
  | stepHours => "step-hours"
  | mode => "mode"
  | archetypes => "archetypes"
  | anomalies => "anomaly-kinds"
  | output => "output"
  | format => "format"
  | metricsFile => "metrics-file"

def letter? : Flag → Option Char
  | settingsFile => some 'c'
  | sampleCount => some 'n'
  | output => some 'o'
  | format => some 'f'
  | _ => none

def isList : Flag → Bool
  | archetypes | anomalies => true
  | _ => false

def ofName? (name : String) : Option Flag := all.find? (·.name = name)

def ofLetter? (c : Char) : Option Flag := all.find? (·.letter? = some c)

def path? (value : String) : Option Path := if value = "" then none else some ⟨value⟩

def format? (value : String) : Option Console.Format :=
  if value = "table" then some .table
  else if value = "json" then some .json
  else none

def set? (flag : Flag) (value : String) (a : Arguments) : Option Arguments :=
  let o := a.overrides
  match flag with
  | settingsFile => (path? value).map fun p => { a with settingsFile := some p }
  | sampleCount =>
    (Decimal.readNatural? value).map fun n =>
      { a with overrides := { o with sampleCount := some n } }
  | traceLength =>
    (Decimal.readNatural? value).map fun n =>
      { a with overrides := { o with traceLength := some n } }
  | anomalyRatio =>
    (Decimal.readFloat? value).map fun x =>
      { a with overrides := { o with anomalyRatio := some x } }
  | seed =>
    (Decimal.readNatural? value).map fun n =>
      { a with overrides := { o with seed := some (UInt64.ofNat n) } }
  | stepHours =>
    (Decimal.readFloat? value).map fun x => { a with overrides := { o with stepHours := some x } }
  | mode => some { a with overrides := { o with mode := some value } }
  | archetypes =>
    let names := o.archetypes.getD [] ++ Layer.splitList value
    some { a with overrides := { o with archetypes := some names } }
  | anomalies =>
    let names := o.anomalies.getD [] ++ Layer.splitList value
    some { a with overrides := { o with anomalies := some names } }
  | output => (path? value).map fun p => { a with overrides := { o with output := some p } }
  | format => (format? value).map fun f => { a with format := f }
  | metricsFile => (path? value).map fun p => { a with metricsFile := some p }

end Flag

inductive Request where
  | run (arguments : Arguments)
  | version
  | help

namespace Arguments

def none : Arguments := ⟨.none, .empty, .table, .none⟩

/-- Arguments in the making: what has been read, and the flags it was read from. -/
structure Draft where
  arguments : Arguments
  given : List Flag

namespace Draft

def empty : Draft := ⟨Arguments.none, []⟩

def take (d : Draft) (flag : Flag) (value : String) : Except UsageFault Draft :=
  if ¬ flag.isList ∧ flag ∈ d.given then .error (.repeated flag)
  else match flag.set? value d.arguments with
    | some a => .ok ⟨a, flag :: d.given⟩
    | .none => .error (.badValue flag value)

end Draft

/-- Whether a word is read as a flag where a value could stand. -/
def looksLikeFlag (word : String) : Bool :=
  match word.toList with
  | '-' :: _ :: _ => true
  | _ => false

inductive Word where
  | flag (flag : Flag) (value : Option String)
  | version
  | help
  | endOfFlags
  | wrong (fault : UsageFault)

def longWord (cs : List Char) : Word :=
  let name := String.ofList (cs.takeWhile (· ≠ '='))
  let value := match cs.dropWhile (· ≠ '=') with
    | _ :: rest => some (String.ofList rest)
    | [] => .none
  match Flag.ofName? name, value with
  | some flag, value => .flag flag value
  | .none, .none =>
    if name = "version" then .version
    else if name = "help" then .help
    else .wrong (.unknownFlag ("--" ++ name))
  | .none, some _ =>
    if name = "version" ∨ name = "help" then .wrong (.needlessValue name)
    else .wrong (.unknownFlag ("--" ++ name))

def letterWord (c : Char) (rest : List Char) : Word :=
  match Flag.ofLetter? c with
  | some flag =>
    match rest with
    | [] => .flag flag .none
    | '=' :: rest => .flag flag (some (String.ofList rest))
    | rest => .flag flag (some (String.ofList rest))
  | .none =>
    if c = 'V' then .version
    else if c = 'h' then .help
    else .wrong (.unknownFlag (String.ofList ['-', c]))

def readWord (word : String) : Word :=
  match word.toList with
  | ['-', '-'] => .endOfFlags
  | '-' :: '-' :: rest => longWord rest
  | '-' :: c :: rest => letterWord c rest
  | _ => .wrong (.unexpectedWord word)

def readFrom : List String → Draft → Except UsageFault Request
  | [], d => .ok (.run d.arguments)
  | word :: rest, d =>
    match readWord word with
    | .version => .ok .version
    | .help => .ok .help
    | .wrong fault => .error fault
    | .endOfFlags =>
      match rest with
      | [] => .ok (.run d.arguments)
      | next :: _ => .error (.unexpectedWord next)
    | .flag flag (some value) => do
      let d ← d.take flag value
      readFrom rest d
    | .flag flag .none =>
      match rest with
      | [] => .error (.missingValue flag)
      | value :: rest =>
        if looksLikeFlag value then .error (.missingValue flag)
        else do
          let d ← d.take flag value
          readFrom rest d

def fileVariable : String := "DATAGEN_CONFIG"

def addVariable (env : Environment) (a : Arguments) : Except UsageFault Arguments :=
  match a.settingsFile, env.find? (·.1 = fileVariable) with
  | .none, some (_, value) =>
    match Flag.settingsFile.set? value a with
    | some a => .ok a
    | .none => .error (.badValue .settingsFile value)
  | _, _ => .ok a

def read (words : List String) (env : Environment) : Except UsageFault Request := do
  match ← readFrom words Draft.empty with
  | .run a => do
    let a ← addVariable env a
    pure (.run a)
  | request => pure request

end Arguments

namespace UsageFault

def message : UsageFault → String
  | unknownFlag word => "unexpected argument '" ++ word ++ "' found"
  | unexpectedWord word => "unexpected argument '" ++ word ++ "' found"
  | missingValue flag => "a value is required for '--" ++ flag.name ++ "' but none was supplied"
  | repeated flag => "the argument '--" ++ flag.name ++ "' cannot be used multiple times"
  | badValue flag value => "invalid value '" ++ value ++ "' for '--" ++ flag.name ++ "'"
  | needlessValue name => "unexpected value for '--" ++ name ++ "'"

end UsageFault

end WorkloadSynth
