import WorkloadSynth.Exchange.Manifest
import WorkloadSynth.Storage.Host

/-!
Putting a dataset on disk: an archive at the output path and a manifest beside it.

The manifest is at the output path with another extension.  Directories above the output are made if
they are missing; the archive is written before the manifest, and an archive whose arrays do not fit
is left as far as it came.
-/

set_option autoImplicit false

namespace WorkloadSynth

inductive OutputFault where
  | file (fault : FileFault)
  | shape (fault : ShapeFault)
deriving DecidableEq, Repr

def OutputFault.message : OutputFault → String
  | file fault => "I/O error: " ++ fault.message
  | shape fault => "array shape mismatch: " ++ fault.message

def OutputFault.cause : OutputFault → String
  | file fault => fault.message
  | shape fault => fault.message

def Path.manifest (output : Path) : Path := output.withExtension "json"

namespace Host

variable {m : Type → Type} [Monad m]

def prepare (host : Host m) (output : Path) : m (Except FileFault Unit) :=
  match output.parent? with
  | none => pure (.ok ())
  | some above => host.ensureDirectories above.isAbsolute above.parts.reverse

def saveArchive (host : Host m) (output : Path) (d : Dataset Float) :
    m (Except OutputFault Unit) := do
  let packing := d.pack
  match ← host.writeFile output (.archive packing.archive) with
  | .error fault => pure (.error (.file fault))
  | .ok () => do
    packing.packed.forM fun p => host.note ⟨none, .partWritten p (d.part p).length⟩
    match packing.fault with
    | some fault => pure (.error (.shape fault))
    | none => pure (.ok ())

def save (host : Host m) (output : Path) (d : Dataset Float) (digest : Digest) :
    m (Except OutputFault Unit) := do
  match ← host.prepare output with
  | .error fault => pure (.error (.file fault))
  | .ok () => do
    match ← host.saveArchive output d with
    | .error fault => pure (.error fault)
    | .ok () => do
      match ← host.writeFile output.manifest (.text digest.manifest) with
      | .error fault => pure (.error (.file fault))
      | .ok () => pure (.ok ())

end Host

end WorkloadSynth
