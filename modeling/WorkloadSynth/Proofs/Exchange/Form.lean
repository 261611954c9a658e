import WorkloadSynth.Exchange.Form
import WorkloadSynth.Proofs.Json.Record

/-!
# Values read back from their texts

`ReadsAs` says what the text of a value is read as, and which floats stand in it.  It holds of naturals, of names
and of rows of floats, and of lists and optional records of what it holds of; `read_write` is what it says of a
text.
-/

set_option autoImplicit false

namespace WorkloadSynth.Exchange

open Json (Reads reread)

variable {α : Type}

/-- The text of `x` is read as `y`, provided that all floats in it are finite. -/
structure ReadsAs [Exchange α] (x : α) (floats : List Float) (y : α) : Prop where
  reads : Reads (shape α).reader (toJson x)
  floats : (toJson x).floats = floats
  back : ofJson? ((toJson x).mapFloats reread) = some y

theorem read_write [Exchange α] {x y : α} {floats : List Float} (h : ReadsAs x floats y) :
    read (write x) = if ∀ v ∈ floats, v.isFinite = true then .ok y else .error .mismatch := by
  have hreads := h.reads.reads [] Json.ends_nil
  have hblanks : Json.skipBlanks [] = [] := rfl
  simp only [List.append_nil, Json.IsFinite, h.floats] at hreads
  unfold read Json.Shape.read write
  rw [hreads]
  split_ifs
  · dsimp only [bind, Except.bind]
    rw [hblanks]
    dsimp only [pure, Except.pure]
    rw [h.back]
  · rfl

/-! ## Naturals and names -/

theorem readsAs_natural {n : ℕ} (h : n < 2 ^ 64) : ReadsAs n [] n :=
  ⟨Reads.natural h, rfl, rfl⟩

theorem readsAs_word (n : UInt64) : ReadsAs n [] n :=
  ⟨Reads.natural n.toNat_lt, rfl, congrArg some (UInt64.ofNat_toNat (x := n))⟩

theorem readsAs_ofNames {all : List α} {name : α → String} (h : (all.map name).Nodup) {x : α} (hx : x ∈ all) :
    @ReadsAs α (.ofNames all name) x [] x :=
  letI := Exchange.ofNames all name
  ⟨Reads.choice (List.mem_map_of_mem hx), rfl, Json.find?_of_nodup name h hx⟩

/-! ## Lists and optional values -/

section Lists

variable [Exchange α] {floats : α → List Float} {f : α → α} {xs : List α}

theorem itemFloats_toJson (h : ∀ x ∈ xs, ReadsAs x (floats x) (f x)) :
    Json.itemFloats (xs.map toJson) = xs.flatMap floats := by
  induction xs with
  | nil => rfl
  | cons x xs ih =>
      obtain ⟨hx, hxs⟩ := List.forall_mem_cons.mp h
      rw [List.map_cons, Json.itemFloats, hx.floats, ih hxs, List.flatMap_cons]

theorem mapM_ofJson? (h : ∀ x ∈ xs, ReadsAs x (floats x) (f x)) :
    (Json.mapItems reread (xs.map toJson)).mapM ofJson? = some (xs.map f) := by
  induction xs with
  | nil => rfl
  | cons x xs ih =>
      obtain ⟨hx, hxs⟩ := List.forall_mem_cons.mp h
      rw [List.map_cons, Json.mapItems, List.mapM_cons, hx.back, ih hxs]
      rfl

theorem readsAs_list (h : ∀ x ∈ xs, ReadsAs x (floats x) (f x)) : ReadsAs xs (xs.flatMap floats) (xs.map f) where
  reads := by
    refine Reads.list fun v hv => ?_
    obtain ⟨x, hx, rfl⟩ := List.mem_map.mp hv
    exact (h x hx).reads
  floats := itemFloats_toJson h
  back := mapM_ofJson? h

end Lists

theorem readsAs_none [Exchange α] : ReadsAs (none : Option α) [] none :=
  ⟨Reads.null _, rfl, rfl⟩

theorem readsAs_some [Exchange α] {x y : α} {floats : List Float} (h : ReadsAs x floats y)
    {fields : List (String × Json)} (hrecord : toJson x = .obj fields) : ReadsAs (some x) floats (some y) where
  reads := by
    refine h.reads.present fun cs => ?_
    rw [hrecord, Json.toList_compact_obj]
    exact fun heq => absurd (List.cons.inj heq).1 (by decide)
  floats := h.floats
  back := by
    have hback := h.back
    change ofJson? (Json.mapFloats reread (toJson x)) = some (some y)
    rw [hrecord] at hback ⊢
    change (ofJson? (Json.mapFloats reread (.obj fields))).map some = some (some y)
    rw [hback]
    rfl

/-! ## Rows of floats -/

section Rows

variable {names : List String} {row : List Float}

theorem takes_row (h : names.length = row.length) :
    List.Forall₂ Json.Slot.Takes (Json.Shape.slots (names.map fun name => (name, .number)))
      (names.zip (row.map Json.float)) := by
  induction names generalizing row with
  | nil => exact .nil
  | cons name names ih =>
      obtain ⟨x, row, rfl⟩ := List.exists_cons_of_length_eq_add_one h.symm
      exact .cons ⟨rfl, Reads.float x⟩ (ih (Nat.succ.inj h))

theorem map_name_slots (names : List String) :
    (Json.Shape.slots (names.map fun name => (name, .number))).map Json.Slot.name = names := by
  induction names with
  | nil => rfl
  | cons name names ih => rw [List.map_cons, Json.Shape.slots, List.map_cons, ih]

theorem fieldFloats_row (h : names.length = row.length) :
    Json.fieldFloats (names.zip (row.map Json.float)) = row := by
  induction names generalizing row with
  | nil => exact (List.length_eq_zero_iff.mp h.symm).symm
  | cons name names ih =>
      obtain ⟨x, row, rfl⟩ := List.exists_cons_of_length_eq_add_one h.symm
      exact congrArg (x :: ·) (ih (Nat.succ.inj h))

theorem mapM_row (h : names.length = row.length) :
    (Json.mapFields reread (names.zip (row.map Json.float))).mapM (fun f => (ofJson? f.2 : Option Float)) =
      some (row.map reread) := by
  induction names generalizing row with
  | nil =>
      obtain rfl := List.length_eq_zero_iff.mp h.symm
      rfl
  | cons name names ih =>
      obtain ⟨x, row, rfl⟩ := List.exists_cons_of_length_eq_add_one h.symm
      rw [List.map_cons, List.zip_cons_cons, Json.mapFields, List.mapM_cons, ih (Nat.succ.inj h)]
      rfl

theorem readsAs_ofRow {toRow : α → List Float} {ofRow? : List Float → Option α} {x y : α} (hnames : names.Nodup)
    (hlength : names.length = (toRow x).length) (hback : ofRow? ((toRow x).map reread) = some y) :
    @ReadsAs α (.ofRow names toRow ofRow?) x (toRow x) y :=
  letI := Exchange.ofRow names toRow ofRow?
  { reads := Reads.record (takes_row hlength) ((map_name_slots names).symm ▸ hnames)
    floats := fieldFloats_row hlength
    back := by
      change (Json.mapFields reread (names.zip ((toRow x).map Json.float))).mapM _ >>= ofRow? = _
      rw [mapM_row hlength]
      exact hback }

end Rows

end WorkloadSynth.Exchange
