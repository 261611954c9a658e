import WorkloadSynth.Storage.Archive

/-!
Archives as bytes.

`ArchiveEntry.bytes` is an array by itself: its header and then its values.  `Archive.bytes` puts
the arrays into a container, none of them compressed: each has a record with its bytes, a directory
says where the records are, and an end record says where the directory is.  Numbers are written
from the lowest byte up.
-/

set_option autoImplicit false

namespace WorkloadSynth

namespace Bytes

def littleEndian : (width n : Nat) → List UInt8
  | 0, _ => []
  | width + 1, n => UInt8.ofNat n :: littleEndian width (n / 256)

def fields (values : List (Nat × Nat)) : List UInt8 :=
  values.flatMap fun (width, n) => littleEndian width n

def append (bytes : ByteArray) (more : List UInt8) : ByteArray := more.foldl ByteArray.push bytes

def checksumStep (c : UInt32) : UInt32 :=
  if c &&& 1 = 1 then (c >>> 1) ^^^ 0xEDB88320 else c >>> 1

def checksum (bytes : ByteArray) : UInt32 :=
  bytes.foldl (fun c b => Nat.repeat checksumStep 8 (c ^^^ b.toUInt32)) 0xFFFFFFFF ^^^ 0xFFFFFFFF

end Bytes

namespace ArchiveEntry

def mark : List UInt8 := [0x93, 0x4E, 0x55, 0x4D, 0x50, 0x59, 1, 0]

def bytes (e : ArchiveEntry) : ByteArray :=
  let preamble := mark ++ Bytes.littleEndian 2 e.header.utf8ByteSize
  let start := (Bytes.append ByteArray.empty preamble) ++ e.header.toUTF8
  match e.data with
  | .singles array =>
    array.values.foldl (fun b v => Bytes.append b (Bytes.littleEndian 4 v.toNat)) start
  | .scalar bits => Bytes.append start (Bytes.littleEndian 8 bits.toNat)

end ArchiveEntry

namespace Archive

/-- The first of January 1980, as a time of day and a date: no array has a time of its own. -/
def stamp : List (Nat × Nat) := [(2, 0), (2, 0x21)]

/-- What a record and its line in the directory share: version, flags, method, time, checksum, the
size before and after compression, and the size of the name. -/
def sharedFields (e : ArchiveEntry) (content : ByteArray) : List (Nat × Nat) :=
  [(2, 10), (2, 0), (2, 0)] ++ stamp ++
    [(4, (Bytes.checksum content).toNat), (4, content.size), (4, content.size),
      (2, e.name.utf8ByteSize)]

def localRecord (e : ArchiveEntry) (content : ByteArray) : ByteArray :=
  let head := Bytes.fields ([(4, 0x04034B50)] ++ sharedFields e content ++ [(2, 0)])
  (Bytes.append ByteArray.empty head ++ e.name.toUTF8) ++ content

def directoryLine (e : ArchiveEntry) (content : ByteArray) (place : Nat) : ByteArray :=
  let head := Bytes.fields ([(4, 0x02014B50), (2, 20)] ++ sharedFields e content ++
    [(2, 0), (2, 0), (2, 0), (2, 0), (4, 0), (4, place)])
  Bytes.append ByteArray.empty head ++ e.name.toUTF8

def endRecord (count size place : Nat) : ByteArray :=
  Bytes.append ByteArray.empty
    (Bytes.fields [(4, 0x06054B50), (2, 0), (2, 0), (2, count), (2, count), (4, size), (4, place),
      (2, 0)])

def bodyFrom : Archive → (records directory : ByteArray) → ByteArray × ByteArray
  | [], records, directory => (records, directory)
  | e :: rest, records, directory =>
    let content := e.bytes
    bodyFrom rest (records ++ localRecord e content)
      (directory ++ directoryLine e content records.size)

def bytes (a : Archive) : ByteArray :=
  let (records, directory) := bodyFrom a ByteArray.empty ByteArray.empty
  records ++ directory ++ endRecord a.length directory.size records.size

end Archive

end WorkloadSynth
