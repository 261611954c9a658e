import WorkloadSynth.Storage.Archive
import WorkloadSynth.Storage.Path

/-!
A volume: directories and files, as a program finds them and leaves them.

A location is a list of names from the root; a volume lists what is at each location.  `walk` goes
through directories from one location to another, and the operations on paths are one walk and one
look at the last name each.  What can go wrong is a `FileFault`, worded as systems word it.

There are no links: each location has its own file, and writing one file changes no other.  On a system
with links two names may lead to one file, which then keeps what was written last.
-/

set_option autoImplicit false

namespace WorkloadSynth

inductive FileFault where
  | notFound
  | alreadyExists
  | notDirectory
  | isDirectory
  | nameTooLong
  | badName
  | other (report : String)
deriving DecidableEq, Repr

def FileFault.message : FileFault → String
  | notFound => "No such file or directory (os error 2)"
  | alreadyExists => "File exists (os error 17)"
  | notDirectory => "Not a directory (os error 20)"
  | isDirectory => "Is a directory (os error 21)"
  | nameTooLong => "File name too long (os error 36)"
  | badName => "file name contained an unexpected NUL byte"
  | other report => report

inductive Content where
  | text (s : String)
  | archive (a : Archive)
deriving DecidableEq

inductive Node where
  | directory
  | file (content : Content)
deriving DecidableEq

abbrev Location := List String

structure Volume where
  home : Location
  nodes : List (Location × Node)

namespace Volume

def fresh (directory : String) : Volume := ⟨[directory], [([directory], .directory)]⟩

def at? (v : Volume) (l : Location) : Option Node :=
  if l = [] then some .directory else (v.nodes.find? (·.1 = l)).map (·.2)

def put (v : Volume) (l : Location) (n : Node) : Volume :=
  { v with nodes := v.nodes.filter (·.1 ≠ l) ++ [(l, n)] }

def maxNameSize : Nat := 255

def maxPathSize : Nat := 4095

/-- What makes a path unfit before anything is looked up. -/
def refusal? (p : Path) : Option FileFault :=
  if p.text.toList.contains '\x00' then some .badName
  else if p.text = "" then some .notFound
  else if maxPathSize < p.text.utf8ByteSize then some .nameTooLong
  else none

def look (v : Volume) (l : Location) (name : String) : Except FileFault (Option Node) :=
  if maxNameSize < name.utf8ByteSize then .error .nameTooLong else .ok (v.at? (l ++ [name]))

def enter (v : Volume) (l : Location) (name : String) : Except FileFault Location :=
  if name = "." then .ok l
  else if name = ".." then .ok l.dropLast
  else do
    match ← v.look l name with
    | none => .error .notFound
    | some (.file _) => .error .notDirectory
    | some .directory => .ok (l ++ [name])

def walk (v : Volume) (l : Location) : List String → Except FileFault Location
  | [] => .ok l
  | name :: rest => do
    let l ← v.enter l name
    walk v l rest

def start (v : Volume) (p : Path) : Location := if p.isAbsolute then [] else v.home

/-- The directory that holds what a path leads to, and the last name; there is none if the path
leads to the root. -/
def approach (v : Volume) (p : Path) : Except FileFault (Location × Option String) := do
  match refusal? p with
  | some fault => .error fault
  | none =>
    let l ← v.walk (v.start p) p.names.dropLast
    pure (l, p.names.getLast?)

def directory? (v : Volume) (p : Path) : Option Location :=
  if (refusal? p).isSome then none else (v.walk (v.start p) p.names).toOption

def file? (v : Volume) (p : Path) : Option Content :=
  match v.approach p with
  | .ok (l, some name) =>
    if p.endsInSlash then none
    else match v.look l name with
      | .ok (some (.file content)) => some content
      | _ => none
  | _ => none

def makeDirectory (v : Volume) (p : Path) : Except FileFault Volume := do
  let (l, last) ← v.approach p
  match last with
  | none => .error .alreadyExists
  | some name =>
    if ¬ Path.isEntryName name then .error .alreadyExists
    else match ← v.look l name with
      | some _ => .error .alreadyExists
      | none => pure (v.put (l ++ [name]) .directory)

/-- Writes a file, in place of the one that was there.  A path that ends in a slash asks for a
directory. -/
def writeFile (v : Volume) (p : Path) (content : Content) : Except FileFault Volume := do
  let (l, last) ← v.approach p
  match last with
  | none => .error .isDirectory
  | some name =>
    if p.endsInSlash ∨ ¬ Path.isEntryName name then .error .isDirectory
    else match ← v.look l name with
      | some .directory => .error .isDirectory
      | _ => pure (v.put (l ++ [name]) (.file content))

def files (v : Volume) : List (String × Content) :=
  v.nodes.filterMap fun
    | (l, .file content) =>
      if v.home.isPrefixOf l then some (String.intercalate "/" (l.drop v.home.length), content)
      else none
    | _ => none

end Volume

end WorkloadSynth
