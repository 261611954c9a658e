import WorkloadSynth.Proofs.Settings.Layers

/-!
# Loading settings

Loading only reads: it finds the file that is asked for and leaves the world as it is.  What a file holds is a
list of settings by name, in which no name occurs twice.
-/

set_option autoImplicit false

namespace WorkloadSynth

/-! ## Steps that only read -/

def Quiet {α : Type} (step : StateM World α) : Prop := ∀ w, (step.run w).2 = w

section

variable {α β : Type} {now : Timestamp}

theorem quiet_pure (a : α) : Quiet (pure a) := fun _ => rfl

theorem quiet_get : Quiet get := fun _ => rfl

theorem Quiet.bind {step : StateM World α} {next : α → StateM World β} (hstep : Quiet step)
    (hnext : ∀ a, Quiet (next a)) : Quiet (step >>= next) := by
  intro w
  rw [StateT.run_bind]
  exact (hnext _ _).trans (hstep w)

theorem Quiet.exists_run {step : StateM World α} (h : Quiet step) (w : World) : ∃ a, step.run w = (a, w) :=
  ⟨_, Prod.ext rfl (h w)⟩

theorem run_bind_of_run {step : StateM World α} {a : α} {w w' : World} (h : step.run w = (a, w'))
    (next : α → StateM World β) : (step >>= next).run w = (next a).run w' := by
  rw [StateT.run_bind, h]
  rfl

theorem quiet_home : Quiet (Host.onWorld now).home := fun _ => rfl

theorem quiet_readText (p : Path) : Quiet ((Host.onWorld now).readText p) := by
  refine quiet_get.bind fun w => ?_
  split <;> exact quiet_pure _

namespace Layer

theorem quiet_firstFile (candidates : List (Path × Format)) :
    Quiet (firstFile (Host.onWorld now) candidates) := by
  induction candidates with
  | nil => exact quiet_pure _
  | cons candidate rest ih =>
      refine (quiet_readText candidate.1).bind fun text? => ?_
      cases text? with
      | some text => exact quiet_pure _
      | none => exact ih

theorem quiet_findFile (p : Path) : Quiet (findFile (Host.onWorld now) p) := by
  refine (quiet_readText p).bind fun text? => ?_
  cases text? with
  | some text =>
      dsimp only
      split
      · exact quiet_pure _
      · exact quiet_home.bind fun _ => quiet_pure _
  | none =>
      refine (quiet_firstFile _).bind fun source? => ?_
      cases source? with
      | some source => exact quiet_pure _
      | none => exact quiet_pure _

theorem quiet_load (p : Path) : Quiet (Layer.load (Host.onWorld now) p) := by
  refine (quiet_findFile p).bind fun found => ?_
  cases found with
  | error fault => exact quiet_pure _
  | ok source =>
      refine quiet_home.bind fun home => ?_
      dsimp only
      split <;> exact quiet_pure _

end Layer

theorem Settings.quiet_load (file : Option Path) (env : Environment) :
    Quiet (Settings.load (Host.onWorld now) file env) := by
  cases file with
  | none => exact quiet_pure _
  | some p =>
      refine (Layer.quiet_load p).bind fun loaded => ?_
      cases loaded with
      | error fault => exact quiet_pure _
      | ok layer => exact quiet_pure _

end

/-! ## What a file holds -/

section Put

variable {ν : Type} (put : List (String × ν) → List (String × ν)) {name : String} {v : ν}

theorem keys_of_put (hnil : put [] = [(name, v)])
    (hcons : ∀ e rest, put (e :: rest) = if e.1 = name then (name, v) :: rest else e :: put rest)
    (entries : List (String × ν)) : (put entries).map Prod.fst =
      if name ∈ entries.map Prod.fst then entries.map Prod.fst else entries.map Prod.fst ++ [name] := by
  induction entries with
  | nil => rw [hnil, List.map_nil, if_neg List.not_mem_nil, List.map_singleton, List.nil_append]
  | cons e rest ih =>
      rw [hcons]
      by_cases he : e.1 = name
      · rw [if_pos he, List.map_cons, List.map_cons, if_pos (List.mem_cons.mpr (.inl he.symm)), he]
      · rw [if_neg he, List.map_cons, List.map_cons, ih]
        simp only [List.mem_cons, Ne.symm he, false_or]
        split <;> rfl

theorem nodup_of_put (hnil : put [] = [(name, v)])
    (hcons : ∀ e rest, put (e :: rest) = if e.1 = name then (name, v) :: rest else e :: put rest)
    {entries : List (String × ν)} (h : (entries.map Prod.fst).Nodup) :
    ((put entries).map Prod.fst).Nodup := by
  rw [keys_of_put put hnil hcons]
  split
  · exact h
  · next hnew =>
    refine List.nodup_append.mpr ⟨h, List.nodup_cons.mpr ⟨List.not_mem_nil, List.nodup_nil⟩, ?_⟩
    intro other hother last hlast heq
    exact hnew (List.mem_singleton.mp hlast ▸ heq ▸ hother)

end Put

namespace Json

theorem nodup_setField {name : String} {v : Json} {read : List (String × Json)} (h : (read.map Prod.fst).Nodup) :
    ((setField name v read).map Prod.fst).Nodup :=
  nodup_of_put (setField name v) rfl (fun _ _ => rfl) h

theorem nodup_readFields {steps depth : Nat} {read fields : List (String × Json)} {first : Bool}
    {cs rest : List Char} (hread : (read.map Prod.fst).Nodup)
    (h : readFields steps depth read first cs = .ok (fields, rest)) : (fields.map Prod.fst).Nodup := by
  induction steps generalizing read first cs with
  | zero => cases h
  | succ steps ih =>
      rw [readFields] at h
      obtain ⟨⟨more, cs₁⟩, -, h⟩ := bind_eq_ok.mp h
      dsimp only at h
      split at h
      · split at h
        · obtain ⟨⟨name, cs₂⟩, -, h⟩ := bind_eq_ok.mp h
          obtain ⟨cs₃, -, h⟩ := bind_eq_ok.mp h
          obtain ⟨⟨v, cs₄⟩, -, h⟩ := bind_eq_ok.mp h
          exact ih (nodup_setField hread) h
        · cases h
      · cases h
        exact hread

theorem ofNumber_ne_obj (n : Number) (fields : List (String × Json)) : ofNumber n ≠ .obj fields := by
  cases n with
  | natural n =>
      simp only [ofNumber]
      split <;> exact Json.noConfusion
  | negative size => simp [ofNumber]
  | float x => simp [ofNumber]

theorem nodup_readFrom {steps depth : Nat} {fields : List (String × Json)} {cs rest : List Char}
    (h : readFrom (steps + 1) depth cs = .ok (.obj fields, rest)) : (fields.map Prod.fst).Nodup := by
  rw [readFrom] at h
  split at h
  · cases h
  · obtain ⟨_, -, h⟩ := bind_eq_ok.mp h
    cases h
  · obtain ⟨_, -, h⟩ := bind_eq_ok.mp h
    cases h
  · obtain ⟨_, -, h⟩ := bind_eq_ok.mp h
    cases h
  · obtain ⟨_, -, h⟩ := bind_eq_ok.mp h
    cases h
  · split at h
    · cases h
    · obtain ⟨_, -, h⟩ := bind_eq_ok.mp h
      obtain ⟨_, -, h⟩ := bind_eq_ok.mp h
      cases h
  · split at h
    · cases h
    · obtain ⟨⟨read, cs₁⟩, hread, h⟩ := bind_eq_ok.mp h
      cases h
      have hnone : (([] : List (String × Json)).map Prod.fst).Nodup := List.nodup_nil
      exact nodup_readFields hnone hread
  · split at h
    · obtain ⟨⟨n, cs₁⟩, -, h⟩ := bind_eq_ok.mp h
      exact absurd (Prod.mk.inj (Except.ok.inj h)).1 (ofNumber_ne_obj n fields)
    · cases h

theorem nodup_ofText? {text : String} {fields : List (String × Json)} (h : ofText? text = .ok (.obj fields)) :
    (fields.map Prod.fst).Nodup := by
  unfold ofText? at h
  obtain ⟨⟨v, rest⟩, hread, h⟩ := bind_eq_ok.mp h
  dsimp only at h
  split at h
  · cases h
    exact nodup_readFrom hread
  · cases h

end Json

namespace Toml

variable {name : String} {item : Item} {items items' : Items}

theorem Items.nodup_set (h : (items.map Prod.fst).Nodup) : ((Items.set name item items).map Prod.fst).Nodup :=
  nodup_of_put (Items.set name item) rfl (fun _ _ => rfl) h

theorem Items.keys_content (items : Items) : (Items.content items).map Prod.fst = items.map Prod.fst := by
  induction items with
  | nil => rfl
  | cons e rest ih =>
      rw [Items.content, List.map_cons, ih]
      rfl

/-- However an item is made, a change to a table is that one item was set. -/
theorem Items.exists_set {α : Type} {found : Option α} {made : α → Item}
    (h : (found >>= fun inner => some (Items.set name (made inner) items)) = some items') :
    ∃ name item, items' = Items.set name item items := by
  obtain ⟨inner, -, h⟩ := Option.bind_eq_some_iff.mp h
  cases h
  exact ⟨_, _, rfl⟩

theorem Items.add_eq_some {isOpen : Bool} {key : List String} (h : Items.add item isOpen key items = some items') :
    ∃ name item', items' = Items.set name item' items := by
  unfold add at h
  split at h
  · cases h
  · split at h
    · cases h
    · cases h
      exact ⟨_, _, rfl⟩
  · split at h
    · exact exists_set h
    · exact exists_set h
    · exact exists_set h
    · exact exists_set h
    · cases h

theorem Items.atHeader_eq_some {change : Option Item → Option Item} {path : List String}
    (h : Items.atHeader change path items = some items') : ∃ name item', items' = Items.set name item' items := by
  unfold atHeader at h
  split at h
  · cases h
  · exact exists_set h
  · split at h
    · exact exists_set h
    · exact exists_set h
    · exact exists_set h
    · cases h

namespace Document

variable {d d' : Document} {cs rest : List Char}

theorem headerLine_eq_some (h : d.headerLine cs = some (d', rest)) :
    ∃ name item', d'.items = Items.set name item' d.items := by
  unfold headerLine at h
  split at h
  · obtain ⟨⟨path, cs₁⟩, -, h⟩ := Option.bind_eq_some_iff.mp h
    dsimp only at h
    split at h
    · obtain ⟨items, hitems, h⟩ := Option.bind_eq_some_iff.mp h
      cases h
      exact Items.atHeader_eq_some hitems
    · cases h
  · obtain ⟨⟨path, cs₁⟩, -, h⟩ := Option.bind_eq_some_iff.mp h
    dsimp only at h
    split at h
    · obtain ⟨items, hitems, h⟩ := Option.bind_eq_some_iff.mp h
      cases h
      exact Items.atHeader_eq_some hitems
    · cases h

theorem valueLine_eq_some (h : d.valueLine cs = some (d', rest)) :
    ∃ name item', d'.items = Items.set name item' d.items := by
  unfold valueLine at h
  obtain ⟨⟨name, cs₁⟩, -, h⟩ := Option.bind_eq_some_iff.mp h
  dsimp only at h
  split at h
  · obtain ⟨⟨v, cs₂⟩, -, h⟩ := Option.bind_eq_some_iff.mp h
    dsimp only at h
    split at h
    · obtain ⟨items, hitems, h⟩ := Option.bind_eq_some_iff.mp h
      cases h
      exact Items.add_eq_some hitems
    · obtain ⟨items, hitems, h⟩ := Option.bind_eq_some_iff.mp h
      cases h
      exact Items.atHeader_eq_some hitems
  · cases h

theorem nodup_linesFrom {steps : Nat} (hd : (d.items.map Prod.fst).Nodup) (h : linesFrom steps d cs = some d') :
    (d'.items.map Prod.fst).Nodup := by
  induction steps generalizing d cs with
  | zero => cases h
  | succ steps ih =>
      rw [linesFrom] at h
      split at h
      · cases h
        exact hd
      · obtain ⟨⟨d₁, cs₁⟩, hline, h⟩ := Option.bind_eq_some_iff.mp h
        obtain ⟨cs₂, -, h⟩ := Option.bind_eq_some_iff.mp h
        obtain ⟨name, item, hitems⟩ := headerLine_eq_some hline
        exact ih (hitems ▸ Items.nodup_set hd) h
      · obtain ⟨⟨d₁, cs₁⟩, hline, h⟩ := Option.bind_eq_some_iff.mp h
        obtain ⟨cs₂, -, h⟩ := Option.bind_eq_some_iff.mp h
        obtain ⟨name, item, hitems⟩ := valueLine_eq_some hline
        exact ih (hitems ▸ Items.nodup_set hd) h

theorem nodup_read? {text : String} {fields : List (String × Json)} (h : read? text = some fields) :
    (fields.map Prod.fst).Nodup := by
  obtain ⟨d, hlines, h⟩ := Option.bind_eq_some_iff.mp h
  cases h
  have hempty : ((⟨[], []⟩ : Document).items.map Prod.fst).Nodup := List.nodup_nil
  rw [Items.keys_content]
  exact nodup_linesFrom hempty hlines

end Document

end Toml

namespace Layer

theorem Format.nodup_read? {format : Format} {text : String} {fields : List (String × Json)}
    (h : format.read? text = some fields) : (fields.map Prod.fst).Nodup := by
  cases format with
  | toml => exact Toml.Document.nodup_read? h
  | json =>
      simp only [Format.read?] at h
      split at h
      · next hread =>
          cases h
          exact Json.nodup_ofText? hread
      · cases h

def Source.entries (source : Source) (home : List String) : Entries :=
  ((source.format.read? source.text).getD []).map fun e =>
    (e.1, Setting.ofJson (.file (source.path.seenFrom home).text) e.2)

theorem Source.nodup_entries (source : Source) (home : List String) :
    ((source.entries home).map Prod.fst).Nodup := by
  unfold Source.entries
  rw [List.map_map]
  cases h : source.format.read? source.text with
  | none => exact List.nodup_nil
  | some fields => exact Format.nodup_read? h

end Layer

namespace Settings

variable {now : Timestamp} {w : World} {file : Option Path} {env : Environment} {s : Settings}

/-- The settings of the file that a run is given, by name; none if it is given no file or cannot find it. -/
def fileEntries (now : Timestamp) (w : World) (file : Option Path) : Entries :=
  match file with
  | none => []
  | some p =>
    match ((Layer.findFile (Host.onWorld now) p).run w).1 with
    | .ok source => source.entries w.volume.home
    | .error _ => []

theorem nodup_fileEntries : ((fileEntries now w file).map Prod.fst).Nodup := by
  unfold fileEntries
  split
  · exact List.nodup_nil
  · split
    · exact Layer.Source.nodup_entries _ _
    · exact List.nodup_nil

theorem layer_load_eq_ok {p : Path} {layer : Layer} (h : ((Layer.load (Host.onWorld now) p).run w).1 = .ok layer) :
    layer = (fileEntries now w (some p)).map fun e => Layer.entry e.1 e.2 := by
  obtain ⟨found, hfound⟩ := (Layer.quiet_findFile p).exists_run w
  have hhome : (Host.onWorld now).home.run w = (w.volume.home, w) := rfl
  rw [Layer.load, run_bind_of_run hfound] at h
  cases found with
  | error fault => cases h
  | ok source =>
      dsimp only at h
      rw [run_bind_of_run hhome] at h
      split at h
      · next hread =>
          obtain ⟨fields, hfields, hlayer⟩ := Option.bind_eq_some_iff.mp hread
          cases h
          cases hlayer
          simp [fileEntries, hfound, Layer.Source.entries, hfields]
      · cases h

theorem load_eq_ok (h : ((Settings.load (Host.onWorld now) file env).run w).1 = .ok s) :
    combine env (some ((fileEntries now w file).map fun e => Layer.entry e.1 e.2)) = .ok s := by
  cases file with
  | none => exact h
  | some p =>
      obtain ⟨loaded, hloaded⟩ := (Layer.quiet_load p).exists_run w
      rw [Settings.load, run_bind_of_run hloaded] at h
      cases loaded with
      | error fault => cases h
      | ok layer =>
          rw [← layer_load_eq_ok (congrArg Prod.fst hloaded)]
          exact h

end Settings

end WorkloadSynth
