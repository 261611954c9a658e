import WorkloadSynth.Exchange.Form
import WorkloadSynth.Report.Journal
import WorkloadSynth.Report.Timestamp

/-!
Records of the journal as JSON, one to a line.
-/

set_option autoImplicit false

namespace WorkloadSynth

def FieldValue.document : FieldValue → Json
  | text s => .str s
  | count n => Json.nat n
  | number x => .float x

def Record.document (r : Record) (t : Timestamp) : Json := .obj
  [("timestamp", .str t.text), ("level", .str r.severity.name),
    ("fields", .obj (r.fields.map fun f => (f.1, f.2.document))), ("target", .str r.target)]

def Record.line (r : Record) (t : Timestamp) : String := (r.document t).compact ++ "\n"

def Record.isShown (r : Record) : Bool := r.severity ≠ .debug

end WorkloadSynth
