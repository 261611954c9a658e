import WorkloadSynth.Storage.NumericArray

/-!
Archives: the named arrays of a dataset, in the order in which they are stored.

`Dataset.archive` makes the arrays part by part and stops at the first that does not fit its shape,
keeping those before it.  `ArchiveEntry.header` is the text in front of the data of an array.
-/

set_option autoImplicit false

namespace WorkloadSynth

inductive ArchiveData where
  | singles (array : NumericArray)
  | scalar (bits : UInt64)
deriving DecidableEq, Repr

structure ArchiveEntry where
  name : String
  data : ArchiveData
deriving DecidableEq, Repr

abbrev Archive := List ArchiveEntry

namespace ArchiveEntry

def shapeText : List Nat → String
  | [n] => "(" ++ toString n ++ ",)"
  | shape => "(" ++ String.intercalate ", " (shape.map toString) ++ ")"

def description (e : ArchiveEntry) : String :=
  let (type, shape) := match e.data with
    | .singles array => ("<f4", array.shape)
    | .scalar _ => ("<i8", [])
  "\x7b'descr': '" ++ type ++ "', 'fortran_order': False, 'shape': " ++ shapeText shape ++ "\x7d"

def preambleSize : Nat := 10

/-- The description, filled up with blanks and a line break so that the data begins at a multiple of
sixty-four bytes; at least one blank stands before the break. -/
def header (e : ArchiveEntry) : String :=
  let text := e.description
  let blanks := 64 - (text.length + preambleSize + 1) % 64
  text ++ String.ofList (List.replicate blanks ' ') ++ "\n"

end ArchiveEntry

namespace Dataset

def partEntries (d : Dataset Float) (p : Part) : Except ShapeFault Archive := do
  let samples := d.part p
  let features ← match d.mode with
    | .sequence => do
      let array ← Sample.traceArray samples d.length
      pure (⟨p.key ++ "_sequences.npy", .singles array⟩ : ArchiveEntry)
    | .flat => do
      let array ← Sample.stepArray samples
      pure ⟨p.key ++ "_features.npy", .singles array⟩
  let labels ← Sample.labelArray samples
  pure [features, ⟨p.key ++ "_labels.npy", .singles labels⟩]

def partsEntries (d : Dataset Float) : List Part → List (Part × Archive) × Option ShapeFault
  | [] => ([], none)
  | p :: rest =>
    match d.partEntries p with
    | .error fault => ([], some fault)
    | .ok entries =>
      let (others, fault) := partsEntries d rest
      ((p, entries) :: others, fault)

def lengthEntry (d : Dataset Float) : ArchiveEntry :=
  ⟨"seq_len.npy", .scalar (UInt64.ofNat d.length)⟩

/-- A dataset as an archive; after a fault it ends with the part before. -/
structure Packing where
  archive : Archive
  packed : List Part
  fault : Option ShapeFault

def pack (d : Dataset Float) : Packing :=
  let (parts, fault) := d.partsEntries Part.all
  let arrays := parts.flatMap (·.2)
  { archive := if fault.isNone then arrays ++ [d.lengthEntry] else arrays
    packed := parts.map (·.1)
    fault }

end Dataset

end WorkloadSynth
