import WorkloadSynth.Exchange.Manifest
import WorkloadSynth.Report.Table
import WorkloadSynth.Storage.Path

/-!
What a run prints: notices with a mark in front, and the digest of the dataset, as text with tables
or as JSON.  Marks and titles are coloured if colour is on.
-/

set_option autoImplicit false

namespace WorkloadSynth

inductive Notice where
  | success
  | failure
  | warning
  | information
deriving DecidableEq, Repr

namespace Console

def styled (colour : Bool) (style text : String) : String :=
  if colour then "\x1b[" ++ style ++ "m" ++ text ++ "\x1b[0m" else text

def mark (colour : Bool) : Notice → String
  | .success => styled colour "1;32" "✓"
  | .failure => styled colour "1;31" "✗"
  | .warning => styled colour "1;33" "⚠"
  | .information => styled colour "1;34" "ℹ"

def notice (colour : Bool) (kind : Notice) (message : String) : String :=
  mark colour kind ++ " " ++ message ++ "\n"

def countsText (t : Tally) : String :=
  if t.isEmpty then "none"
  else String.intercalate ", " (t.map fun p => p.1 ++ "=" ++ toString p.2)

def columnRow (c : NamedColumn) : List String :=
  c.name :: [c.column.mean, c.column.deviation, c.column.minimum, c.column.maximum].map
    (Decimal.fixed 4)

def columnTable (columns : List NamedColumn) : Table where
  header := ["Column", "Mean", "Std", "Min", "Max"]
  rows := columns.map columnRow

def columnsText (colour : Bool) (title : String) (columns : List NamedColumn) : String :=
  "\n" ++ styled colour "1" title ++ "\n" ++ (columnTable columns).text ++ "\n"

def digestText (colour : Bool) (d : Digest) (output : Path) : String :=
  notice colour .success
      ("Saved " ++ toString d.total ++ " samples to " ++ output.text) ++
    notice colour .information
      ("Splits: train " ++ toString d.train ++ ", val " ++ toString d.validation ++ ", test " ++
        toString d.test ++ " (mode " ++ d.mode.name ++ ", seq_len " ++ toString d.length ++
        ", seed " ++ toString d.seed.toNat ++ ")") ++
    notice colour .information
      ("Anomalous samples: " ++ toString d.anomalous ++ " (" ++ countsText d.byAnomaly ++ ")") ++
    notice colour .information ("Archetypes: " ++ countsText d.byArchetype) ++
    (if d.validation = 0 ∨ d.test = 0 then
      notice colour .warning "Validation or test split is empty; generate more samples"
    else "") ++
    columnsText colour "Features" d.features ++ columnsText colour "Labels" d.labels

inductive Format where
  | table
  | json
deriving DecidableEq, Repr

def digest (colour : Bool) (format : Format) (d : Digest) (output : Path) : String :=
  match format with
  | .table => digestText colour d output
  | .json => d.manifest ++ "\n"

end Console

end WorkloadSynth
