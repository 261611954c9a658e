import WorkloadSynth.Settings.Toml.Moment
import WorkloadSynth.Settings.Toml.Number
import WorkloadSynth.Settings.Toml.Table

/-!
Settings files in the line-oriented format: `key = value` lines, `[table]` headers and comments.

Keys may be bare, quoted or dotted; values are texts, numbers, moments, `true` and `false`, arrays
and inline tables.  `Document.read?` gives what a file holds, or nothing if it breaks the format.
-/

set_option autoImplicit false

namespace WorkloadSynth.Toml

/-! ### Values -/

mutual

def valueFrom : (steps depth : Nat) → Reader Json
  | 0, _, _ => none
  | steps + 1, depth, cs =>
    match cs with
    | '[' :: rest =>
      match depth with
      | 0 => none
      | depth + 1 => do
        let (items, rest) ← itemsFrom steps depth rest
        some (.arr items, rest)
    | '{' :: rest =>
      match depth with
      | 0 => none
      | depth + 1 => do
        let (items, rest) ← inlineFrom steps depth [] true rest
        some (.obj items.content, rest)
    | c :: _ =>
      if c = '"' ∨ c = '\'' then do
        let (s, rest) ← text cs
        some (.str s, rest)
      else match Moment.read? cs with
        | some (s, rest) => some (.str s, rest)
        | none => do
          let word := cs.takeWhile isWordChar
          let v ← word? word
          some (v, cs.drop word.length)
    | [] => none

def itemsFrom : (steps depth : Nat) → Reader (List Json)
  | 0, _, _ => none
  | steps + 1, depth, cs =>
    match skipLines cs.length cs with
    | ']' :: rest => some ([], rest)
    | cs => do
      let (v, rest) ← valueFrom steps depth cs
      match skipLines rest.length rest with
      | ',' :: rest => do
        let (others, rest) ← itemsFrom steps depth rest
        some (v :: others, rest)
      | ']' :: rest => some ([v], rest)
      | _ => none

def inlineFrom : (steps depth : Nat) → (items : Items) → (first : Bool) → Reader Items
  | 0, _, _, _, _ => none
  | steps + 1, depth, items, first, cs =>
    match first, skipBlanks cs with
    | true, '}' :: rest => some (items, rest)
    | _, cs => do
      let (name, rest) ← key cs
      match rest with
      | '=' :: rest => do
        let (v, rest) ← valueFrom steps depth (skipBlanks rest)
        let items ← items.add (.value v) true name
        match skipBlanks rest with
        | ',' :: rest => inlineFrom steps depth items false rest
        | '}' :: rest => some (items, rest)
        | _ => none
      | _ => none

end

def value (cs : List Char) : Option (Json × List Char) :=
  valueFrom (2 * cs.length + 2) maxDepth cs

/-! ### Lines -/

/-- What has been read of a document: its items, and the header of the table that is open. -/
structure Document where
  items : Items
  header : List String

namespace Document

def headerLine (d : Document) (cs : List Char) : Option (Document × List Char) :=
  match cs with
  | '[' :: rest => do
    let (path, rest) ← key rest
    match rest with
    | ']' :: ']' :: rest => do
      let items ← d.items.atHeader Item.openTables path
      some (⟨items, path⟩, rest)
    | _ => none
  | cs => do
    let (path, rest) ← key cs
    match rest with
    | ']' :: rest => do
      let items ← d.items.atHeader Item.openTable path
      some (⟨items, path⟩, rest)
    | _ => none

def valueLine (d : Document) (cs : List Char) : Option (Document × List Char) := do
  let (name, rest) ← key cs
  match rest with
  | '=' :: rest => do
    let (v, rest) ← value (skipBlanks rest)
    let items ←
      if d.header = [] then d.items.add (.value v) true name
      else d.items.atHeader (Item.extend name (.value v)) d.header
    some (⟨items, d.header⟩, rest)
  | _ => none

def linesFrom : (steps : Nat) → Document → List Char → Option Document
  | 0, _, _ => none
  | steps + 1, d, cs =>
    match skipLines cs.length cs with
    | [] => some d
    | '[' :: rest => do
      let (d, rest) ← d.headerLine rest
      linesFrom steps d (← endLine rest)
    | cs => do
      let (d, rest) ← d.valueLine cs
      linesFrom steps d (← endLine rest)

def dropMark : List Char → List Char
  | '\ufeff' :: rest => rest
  | cs => cs

def read? (text : String) : Option (List (String × Json)) := do
  let cs := dropMark text.toList
  let d ← linesFrom (cs.length + 1) ⟨[], []⟩ cs
  some d.items.content

end Document

end WorkloadSynth.Toml
