import WorkloadSynth.Json.Value
import WorkloadSynth.Settings.Toml.Text

/-!
Keys of the line-oriented format, and the tables that they build.

A key may be given once only.  How a table came about settles what may be added to it: a dotted key
goes on in tables that dotted keys have made, through tables that only stand above others, and in
the last of several tables under one header, but its last name has to fall into a table that is open
for values.  A header goes through any table, and opens one that is new or only stands above others.
-/

set_option autoImplicit false

namespace WorkloadSynth.Toml

/-! ### Keys -/

def isBareKey (c : Char) : Bool := c.isAlphanum || c = '_' || c = '-'

def simpleKey (cs : List Char) : Option (String × List Char) :=
  match cs with
  | '"' :: rest => do
    let (read, rest) ← basicFrom (rest.length + 1) [] rest
    some (String.ofList read.reverse, rest)
  | '\'' :: rest => do
    let (text, rest) ← literal rest
    some (String.ofList text, rest)
  | cs =>
    let name := cs.takeWhile isBareKey
    if name.isEmpty then none else some (String.ofList name, cs.drop name.length)

def maxDepth : Nat := 79

/-- A key of one name or at most `names` with dots between them. -/
def keyFrom : (names : Nat) → Reader (List String)
  | 0, _ => none
  | names + 1, cs => do
    let (name, rest) ← simpleKey (skipBlanks cs)
    match skipBlanks rest with
    | '.' :: rest => do
      let (others, rest) ← keyFrom names rest
      some (name :: others, rest)
    | rest => some ([name], rest)

def key (cs : List Char) : Option (List String × List Char) := keyFrom maxDepth cs

/-! ### Tables -/

inductive Making where
  | implied
  | headed
  | dotted
deriving DecidableEq, Repr

inductive Item where
  | value (v : Json)
  | table (making : Making) (entries : List (String × Item))
  | tables (items : List (List (String × Item)))

abbrev Items := List (String × Item)

namespace Items

def set (name : String) (item : Item) : Items → Items
  | [] => [(name, item)]
  | (other, i) :: rest =>
    if other = name then (name, item) :: rest else (other, i) :: set name item rest

def find? (name : String) (items : Items) : Option Item :=
  (List.find? (fun e => e.1 = name) items).map (·.2)

/-- Adds an item under a key to a table, which may be open for values or not; dotted names make
tables. -/
def add (item : Item) : (isOpen : Bool) → (key : List String) → Items → Option Items
  | _, [], _ => none
  | isOpen, [name], items =>
    if !isOpen || (find? name items).isSome then none else some (set name item items)
  | _, name :: rest, items =>
    match find? name items with
    | none => do
      let inner ← add item true rest []
      some (set name (.table .dotted inner) items)
    | some (.table .dotted inner) => do
      let inner ← add item true rest inner
      some (set name (.table .dotted inner) items)
    | some (.table .implied inner) => do
      let inner ← add item false rest inner
      some (set name (.table .implied inner) items)
    | some (.tables (last :: before)) => do
      let last ← add item false rest last
      some (set name (.tables (last :: before)) items)
    | some _ => none

/-- Changes the table that a path of headers leads to.  `change` gets what is under the last
name. -/
def atHeader (change : Option Item → Option Item) : (path : List String) → Items → Option Items
  | [], _ => none
  | [name], items => do
    let item ← change (find? name items)
    some (set name item items)
  | name :: rest, items =>
    match find? name items with
    | none => do
      let inner ← atHeader change rest []
      some (set name (.table .implied inner) items)
    | some (.table making inner) => do
      let inner ← atHeader change rest inner
      some (set name (.table making inner) items)
    | some (.tables (last :: before)) => do
      let last ← atHeader change rest last
      some (set name (.tables (last :: before)) items)
    | some _ => none

end Items

namespace Item

def openTable : Option Item → Option Item
  | none => some (.table .headed [])
  | some (.table .implied items) => some (.table .headed items)
  | some _ => none

def openTables : Option Item → Option Item
  | none => some (.tables [[]])
  | some (.tables items) => some (.tables ([] :: items))
  | some _ => none

def extend (key : List String) (item : Item) : Option Item → Option Item
  | some (.table making items) => (Items.add item true key items).map (.table making)
  | some (.tables (last :: before)) =>
    (Items.add item true key last).map fun last => .tables (last :: before)
  | _ => none

end Item

mutual

def Item.content : Item → Json
  | .value v => v
  | .table _ items => .obj (Items.content items)
  | .tables items => .arr (tablesContent items).reverse

def Items.content : Items → List (String × Json)
  | [] => []
  | (name, item) :: rest => (name, item.content) :: Items.content rest

def tablesContent : List Items → List Json
  | [] => []
  | items :: rest => .obj (Items.content items) :: tablesContent rest

end

end WorkloadSynth.Toml
