import Std.Time.DateTime.Timestamp
import WorkloadSynth.CommandLine.Run
import WorkloadSynth.Exchange.Record
import WorkloadSynth.Storage.Container

/-!
The host that a program really runs on.

Each operation asks the system for one thing and says what came of it; nothing is decided here.
Events become lines on the standard error.
-/

set_option autoImplicit false

namespace WorkloadSynth

def FileFault.ofCode (code : UInt32) (details : String) : FileFault :=
  match code with
  | 2 => .notFound
  | 17 => .alreadyExists
  | 20 => .notDirectory
  | 21 => .isDirectory
  | 36 => .nameTooLong
  | code => .other (details ++ " (os error " ++ toString code ++ ")")

def FileFault.ofReport : IO.Error → FileFault
  | .alreadyExists _ code details | .otherError code details | .resourceBusy code details
  | .resourceVanished code details | .unsupportedOperation code details
  | .hardwareFault code details | .unsatisfiedConstraints code details
  | .illegalOperation code details | .protocolError code details | .timeExpired code details
  | .interrupted _ code details | .noFileOrDirectory _ code details
  | .invalidArgument _ code details | .permissionDenied _ code details
  | .resourceExhausted _ code details | .inappropriateType _ code details
  | .noSuchThing _ code details => .ofCode code details
  | .unexpectedEof => .other "unexpected end of file"
  | .userError details => .other details

def Content.bytes : Content → ByteArray
  | text s => s.toUTF8
  | archive a => a.bytes

namespace Host

def outcome (action : IO Unit) : IO (Except FileFault Unit) := do
  try
    action
    pure (.ok ())
  catch e => pure (.error (.ofReport e))

def checked (p : Path) (action : String → IO Unit) : IO (Except FileFault Unit) :=
  if p.text.toList.contains '\x00' then pure (.error .badName) else outcome (action p.text)

def wallTime : IO Timestamp := do
  let nanos := (← Std.Time.Timestamp.now).toNanosecondsSinceUnixEpoch.val
  pure ⟨nanos / 1000000000, (nanos % 1000000000).toNat⟩

def real : Host IO where
  home := do pure (Path.names ⟨(← IO.currentDir).toString⟩)
  readText p := do
    try
      pure (some (← IO.FS.readFile p.text))
    catch _ => pure none
  isDirectory p := do
    match ← checked p fun text => discard (IO.FS.Handle.mk (text ++ "/.") .read) with
    | .ok () => pure true
    | .error _ => pure false
  makeDirectory p := checked p fun text => IO.FS.createDir text
  writeFile p content := checked p fun text => IO.FS.writeBinFile text content.bytes
  print s := IO.print s
  report s := IO.eprint s
  note e := do
    if e.record.isShown then IO.eprint (e.record.line (← wallTime)) else pure ()
  clock := do pure (Float.ofNat (← IO.monoNanosNow) / 1000000000)
  now := wallTime

end Host

namespace Program.Surroundings

def assignment? (text : String) : Option (String × String) :=
  match text.toList.dropWhile (· ≠ '=') with
  | _ :: value => some (String.ofList (text.toList.takeWhile (· ≠ '=')), String.ofList value)
  | [] => none

def about (topic : String) : IO String := do
  try
    IO.FS.readFile ("/proc/self/" ++ topic)
  catch _ => pure ""

/-- The surroundings of a real run; a run is named by the number of its process. -/
def ofSystem : IO Surroundings := do
  let entries := (← about "environ").splitOn "\x00"
  let process := ((← about "stat").splitOn " ").headD ""
  let isTerminal ← (← IO.getStdout).isTty
  pure ⟨entries.filterMap assignment?, "datagen-" ++ process, isTerminal⟩

end Program.Surroundings

end WorkloadSynth
