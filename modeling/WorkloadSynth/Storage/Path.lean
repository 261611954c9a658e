/-!
Paths as text.

A path is kept as it was written.  `names` cuts it at its slashes; `parts` also drops the dots that
say nothing, which leaves what two spellings of a path have in common.  From `parts` come the name
of the file (`fileName?`), what is above it (`parent?`) and the path of a sister file with another
extension (`withExtension`), which keeps the spelling of everything before the extension.
-/

set_option autoImplicit false

namespace WorkloadSynth

structure Path where
  text : String
deriving DecidableEq, Repr

namespace Path

def cutAtSlashes : List Char → List (List Char)
  | [] => [[]]
  | c :: rest =>
    match cutAtSlashes rest with
    | [] => [[c]]
    | first :: others => if c = '/' then [] :: first :: others else (c :: first) :: others

def names (p : Path) : List String :=
  ((cutAtSlashes p.text.toList).filter (· ≠ [])).map String.ofList

def isAbsolute (p : Path) : Bool := p.text.toList.head? = some '/'

def endsInSlash (p : Path) : Bool := p.text.toList.getLast? = some '/'

/-- The names of a path without dots that say nothing; only a relative path may begin with one. -/
def parts (p : Path) : List String :=
  match p.names with
  | [] => []
  | first :: rest =>
    (if first = "." ∧ p.isAbsolute then [] else [first]) ++ rest.filter (· ≠ ".")

def ofParts (absolute : Bool) (parts : List String) : Path :=
  ⟨(if absolute then "/" else "") ++ String.intercalate "/" parts⟩

def namesUnder (p : Path) (directory : List String) : List String :=
  (if p.isAbsolute then [] else directory) ++ p.names.filter (· ≠ ".")

def under (p : Path) (directory : List String) : Path :=
  if p.isAbsolute then p else ⟨(ofParts true directory).text ++ "/" ++ p.text⟩

/-- How one location reads from another, both given by the names that lead there from the root. -/
def between : (start goal : List String) → List String
  | [], goal => goal
  | start, [] => start.map fun _ => ".."
  | s :: start, g :: goal =>
    if s = g then between start goal else (s :: start).map (fun _ => "..") ++ g :: goal

def seenFrom (p : Path) (directory : List String) : Path :=
  ofParts false (between directory (p.namesUnder directory))

def isEntryName (name : String) : Bool := name ≠ "." ∧ name ≠ ".."

def fileName? (p : Path) : Option String := p.parts.getLast?.filter isEntryName

def parent? (p : Path) : Option Path :=
  if p.parts = [] then none else some (ofParts p.isAbsolute p.parts.dropLast)

/-- Splits a file name at its last dot; a dot in front does not count. -/
def splitName (name : List Char) : List Char × Option (List Char) :=
  let ending := (name.reverse.takeWhile (· ≠ '.')).reverse
  let before := name.take (name.length - ending.length - 1)
  if ending.length = name.length ∨ before = [] then (name, none) else (before, some ending)

def stem (name : String) : String := String.ofList (splitName name.toList).1

def extension? (p : Path) : Option String := do
  let name ← p.fileName?
  let ending ← (splitName name.toList).2
  some (String.ofList ending)

def beforeLast (cs : List Char) : List Char :=
  (cs.reverse.dropWhile (· ≠ '/')).reverse

def trimEnd : (steps : Nat) → List Char → List Char
  | 0, cs => cs
  | steps + 1, cs =>
    match cs.reverse with
    | '/' :: rest => trimEnd steps rest.reverse
    | '.' :: '/' :: rest => trimEnd steps ('/' :: rest).reverse
    | _ => cs

/-- The same path with another extension; a path that leads to no file stays as it is. -/
def withExtension (p : Path) (extension : String) : Path :=
  match p.fileName? with
  | none => p
  | some name =>
    let cs := p.text.toList
    ⟨String.ofList (beforeLast (trimEnd cs.length cs)) ++ stem name ++ "." ++ extension⟩

def appendExtension (p : Path) (extension : String) : Path :=
  ⟨String.ofList (trimEnd p.text.length p.text.toList) ++ "." ++ extension⟩

end Path

end WorkloadSynth
