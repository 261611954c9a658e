import WorkloadSynth.Settings.Address
import WorkloadSynth.Settings.Setting

/-!
Settings by name, and what putting a setting at an address does to them.

A table put over another setting is merged with it entry by entry; anything else takes the place of
what was there.  The steps of an address make what they need: a table for an entry, and a list with
enough items for an item, in the place of any other setting.  What is made so comes from nowhere.
-/

set_option autoImplicit false

namespace WorkloadSynth

abbrev Entries := List (String × Setting)

/-- A position before the first item of a list, or one that no list reaches. -/
structure PositionFault where
  position : Int
  length : Nat
deriving DecidableEq, Repr

def PositionFault.message (f : PositionFault) : String :=
  "no item " ++ toString f.position ++ " in a list of " ++ toString f.length

namespace Entries

def find? (name : String) (entries : Entries) : Option Setting :=
  (List.find? (fun e => e.1 = name) entries).map (·.2)

def set (name : String) (s : Setting) : Entries → Entries
  | [] => [(name, s)]
  | (other, t) :: rest => if other = name then (name, s) :: rest else (other, t) :: set name s rest

theorem find?_set (name wanted : String) (s : Setting) (entries : Entries) :
    find? wanted (set name s entries) = if wanted = name then some s else find? wanted entries := by
  induction entries with
  | nil => by_cases h : wanted = name <;> simp [set, find?, h, Ne.symm]
  | cons e rest ih =>
    obtain ⟨other, t⟩ := e
    by_cases ho : other = name
    · by_cases h : wanted = name <;> simp [set, find?, ho, h, Ne.symm]
    · by_cases h : other = wanted
      · have : wanted ≠ name := fun hw => ho (h.trans hw)
        simp [set, find?, h, this]
      · simp only [set, find?, ho, if_false, List.find?_cons, h, decide_false]
        exact ih

end Entries

namespace Setting

def nothing : Setting := single .null none

/-- The entries of a setting taken for a table, and where that comes from. -/
def asTable : Option Setting → Entries × Option Origin
  | some (table entries origin) => (entries, origin)
  | _ => ([], none)

def asList : Option Setting → List Setting × Option Origin
  | some (list items origin) => (items, origin)
  | _ => ([], none)

mutual

/-- A setting put over what was there. -/
def onto (s : Setting) (old : Option Setting) : Setting :=
  match s with
  | table [] _ => old.getD (table [] none)
  | table (e :: rest) _ =>
    let (entries, origin) := asTable old
    table (entriesOnto (e :: rest) entries) origin
  | s => s

def entriesOnto : Entries → Entries → Entries
  | [], entries => entries
  | (name, s) :: rest, entries =>
    let name := Text.lowerKey name
    entriesOnto rest (entries.set name (s.onto (entries.find? name)))

end

/-- The length at which memory is taken to run out.  The reader of settings has no bound of its own. -/
def maxLength : Nat := 0x100000000

def index (position : Int) (length : Nat) : Except PositionFault Nat :=
  let i := if position < 0 then (length : Int) + position else position
  if 0 ≤ i ∧ i.toNat < maxLength then .ok i.toNat else .error ⟨position, length⟩

def filledTo (i : Nat) (items : List Setting) : List Setting :=
  items ++ List.replicate (i + 1 - items.length) nothing

/-- What a setting becomes when another is put where some steps from it lead.  An item of a list is
replaced and not merged. -/
def putAt (s : Setting) : (steps : List Address.Step) → (old : Option Setting) →
    Except PositionFault Setting
  | [], old => .ok (s.onto old)
  | .entry name :: rest, old => do
    let (entries, origin) := asTable old
    let inner ← putAt s rest (entries.find? name)
    pure (table (entries.set name inner) origin)
  | .item position :: rest, old => do
    let (items, origin) := asList old
    let i ← index position items.length
    let items := filledTo i items
    let inner ← if rest = [] then pure s else putAt s rest items[i]?
    pure (list (items.set i inner) origin)

end Setting

namespace Entries

def putAt (a : Address) (s : Setting) (entries : Entries) : Except PositionFault Entries := do
  let inner ← s.putAt a.steps (entries.find? a.name)
  pure (entries.set a.name inner)

end Entries

end WorkloadSynth
