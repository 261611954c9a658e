import WorkloadSynth.Json.Shape
import WorkloadSynth.Proofs.Json.Number
import WorkloadSynth.Proofs.Json.Quoted

/-!
# Values read back from their text

`Reads` says of a reader and a value what becomes of the compact text of the value: with every float in it
finite it is read as the value with its floats reread, and with any other float in it it is refused.  Numbers,
names, nulls, lists and records are taken apart here, each from what is known of its parts; a record is read by
the names of its fields, which all differ.
-/

set_option autoImplicit false

namespace WorkloadSynth.Json

/-! ## The floats of a value -/

mutual

def floats : Json → List Float
  | float x => [x]
  | arr items => itemFloats items
  | obj fields => fieldFloats fields
  | _ => []

def itemFloats : List Json → List Float
  | [] => []
  | v :: rest => floats v ++ itemFloats rest

def fieldFloats : List (String × Json) → List Float
  | [] => []
  | (_, v) :: rest => floats v ++ fieldFloats rest

end

mutual

def mapFloats (f : Float → Float) : Json → Json
  | float x => float (f x)
  | arr items => arr (mapItems f items)
  | obj fields => obj (mapFields f fields)
  | v => v

def mapItems (f : Float → Float) : List Json → List Json
  | [] => []
  | v :: rest => mapFloats f v :: mapItems f rest

def mapFields (f : Float → Float) : List (String × Json) → List (String × Json)
  | [] => []
  | (name, v) :: rest => (name, mapFloats f v) :: mapFields f rest

end

def IsFinite (v : Json) : Prop := ∀ x ∈ v.floats, x.isFinite = true

instance (v : Json) : Decidable v.IsFinite := inferInstanceAs (Decidable (∀ x ∈ v.floats, _))

theorem mapItems_eq (f : Float → Float) (items : List Json) : mapItems f items = items.map (mapFloats f) := by
  induction items with
  | nil => rfl
  | cons v rest ih => rw [mapItems, ih, List.map_cons]

theorem mapFields_eq (f : Float → Float) (fields : List (String × Json)) :
    mapFields f fields = fields.map fun p => (p.1, p.2.mapFloats f) := by
  induction fields with
  | nil => rfl
  | cons p rest ih => rw [mapFields, ih, List.map_cons]

theorem isFinite_arr (items : List Json) : (arr items).IsFinite ↔ ∀ v ∈ items, v.IsFinite := by
  induction items with
  | nil => simp [IsFinite, floats, itemFloats]
  | cons v rest ih =>
      rw [List.forall_mem_cons, ← ih]
      exact List.forall_mem_append

theorem isFinite_obj (fields : List (String × Json)) : (obj fields).IsFinite ↔ ∀ p ∈ fields, p.2.IsFinite := by
  induction fields with
  | nil => simp [IsFinite, floats, fieldFloats]
  | cons p rest ih =>
      rw [List.forall_mem_cons, ← ih]
      exact List.forall_mem_append

/-! ## Beginnings and ends -/

def Begins (c : Char) : Prop := isBlank c = false ∧ c ≠ ']' ∧ c ≠ '\x7d'

theorem skipBlanks_cons {c : Char} (h : isBlank c = false) (cs : List Char) : skipBlanks (c :: cs) = c :: cs :=
  List.dropWhile_cons_of_neg (by rw [h]; exact Bool.false_ne_true)

theorem begins_of_isDigit {c : Char} (h : Decimal.isDigit c = true) : Begins c := by
  refine ⟨?_, ?_, ?_⟩
  · by_contra hblank
    simp only [isBlank, Bool.or_eq_true, decide_eq_true_eq, Bool.not_eq_false] at hblank
    rcases hblank with ((rfl | rfl) | rfl) | rfl <;> exact absurd h (by decide)
  · rintro rfl
    exact absurd h (by decide)
  · rintro rfl
    exact absurd h (by decide)

theorem ends_nil : Ends [] := by
  intro c h
  cases h

theorem ends_comma (rest : List Char) : Ends (',' :: rest) := by
  intro c h
  exact .inl (Option.some.inj h).symm

theorem ends_square (rest : List Char) : Ends (']' :: rest) := by
  intro c h
  exact .inr (.inl (Option.some.inj h).symm)

theorem ends_curly (rest : List Char) : Ends ('\x7d' :: rest) := by
  intro c h
  exact .inr (.inr (Option.some.inj h).symm)

/-- What follows an entry: the others, each with a comma before it, and then what ends them. -/
def others {β : Type} (text : β → List Char) (entries : List β) : List Char :=
  entries.flatMap fun b => ',' :: text b

theorem ends_others {β : Type} (text : β → List Char) (entries : List β) {rest : List Char} (h : Ends rest) :
    Ends (others text entries ++ rest) := by
  cases entries with
  | nil => exact h
  | cons b entries => exact ends_comma _

theorem length_le_others {β : Type} (text : β → List Char) (entries : List β) :
    entries.length ≤ (others text entries).length := by
  induction entries with
  | nil => exact le_rfl
  | cons b entries ih =>
      rw [others, List.flatMap_cons, List.length_append, List.length_cons, List.length_cons]
      change entries.length + 1 ≤ _ + (others text entries).length
      omega

section NextItem

variable {closing : Char} {c : Char} {cs : List Char}

theorem nextItem_closing (first : Bool) (h : isBlank closing = false) :
    nextItem closing first (closing :: cs) = .ok (false, closing :: cs) := by
  rw [nextItem, skipBlanks_cons h]
  exact if_pos rfl

variable (hc : isBlank c = false) (hne : c ≠ closing)

include hc hne

theorem nextItem_first : nextItem closing true (c :: cs) = .ok (true, c :: cs) := by
  rw [nextItem, skipBlanks_cons hc]
  dsimp only
  rw [if_neg hne, if_pos rfl]

theorem nextItem_comma (h : ',' ≠ closing) : nextItem closing false (',' :: c :: cs) = .ok (true, c :: cs) := by
  rw [nextItem, skipBlanks_cons (by decide)]
  dsimp only
  rw [if_neg h, if_neg Bool.false_ne_true, if_pos rfl, skipBlanks_cons hc]
  dsimp only
  rw [if_neg hne]

end NextItem

/-! ## Reading a value back -/

structure Reads (read : Reader Json) (v : Json) : Prop where
  begins : ∃ c cs, v.compact.toList = c :: cs ∧ Begins c
  reads : ∀ rest, Ends rest → read (v.compact.toList ++ rest) =
    if v.IsFinite then .ok (v.mapFloats reread, rest) else .error .mismatch

namespace Reads

/-! ## Numbers, names and nulls -/

theorem isFinite_float (x : Float) : (Json.float x).IsFinite ↔ x.isFinite = true := by
  simp [IsFinite, floats]

theorem compact_of_not_finite {x : Float} (h : ¬ x.isFinite = true) : (Json.float x).compact = "null" := by
  change Decimal.Layout.json.text x = _
  unfold Decimal.Layout.text
  rcases Binary64.decode_of_not_finite h with hdecode | ⟨negative, hdecode⟩ <;> rw [hdecode]
  · rfl
  · cases negative <;> rfl

private theorem readNumber_of_read {cs : List Char} {r : Number × List Char} (h : Number.read cs = .ok r) :
    readNumber cs = .ok r := by
  obtain ⟨c, rest, rfl, hc⟩ := Number.head_of_read h
  have hblank : isBlank c = false := by
    rcases hc with rfl | hc
    · decide
    · exact (begins_of_isDigit hc).1
  rw [readNumber, skipBlanks_cons hblank]
  exact (if_pos hc).trans h

theorem float (x : Float) : Reads readFloat (.float x) := by
  by_cases hx : x.isFinite = true
  · have hread {rest : List Char} (h : Ends rest) := Number.read_text hx h
    refine ⟨?_, fun rest h => ?_⟩
    · obtain ⟨c, cs, hcs, hc⟩ := Number.head_of_read (hread ends_nil)
      rw [List.append_nil] at hcs
      refine ⟨c, cs, hcs, ?_⟩
      rcases hc with rfl | hc
      · exact ⟨by decide, by decide, by decide⟩
      · exact begins_of_isDigit hc
    · rw [if_pos ((isFinite_float x).mpr hx), readFloat]
      change (readNumber ((Decimal.Layout.json.text x).toList ++ rest) >>= _) = _
      rw [readNumber_of_read (hread h)]
      rfl
  · have hnull := compact_of_not_finite hx
    refine ⟨⟨'n', _, by rw [hnull]; rfl, ⟨by decide, by decide, by decide⟩⟩, fun rest h => ?_⟩
    rw [hnull, if_neg fun hfinite => hx ((isFinite_float x).mp hfinite)]
    rfl

theorem natural {n : ℕ} (h : n < 2 ^ 64) : Reads readNatural (.nat n) := by
  have htext : (Json.nat n).compact.toList = (toString n).toList := rfl
  have hread {rest : List Char} (hrest : Ends rest) := Number.read_numeral h hrest
  refine ⟨?_, fun rest hrest => ?_⟩
  · obtain ⟨c, cs, hcs⟩ := List.exists_cons_of_ne_nil (Decimal.numeral_ne_nil n)
    exact ⟨c, cs, htext.trans hcs, begins_of_isDigit (Decimal.isDigit_of_mem_numeral c (hcs ▸ List.mem_cons_self))⟩
  · have hfinite : (Json.nat n).IsFinite := fun x hx => absurd hx List.not_mem_nil
    rw [htext, if_pos hfinite, readNatural, readNumber_of_read (hread hrest)]
    rfl

theorem choice {names : List String} {name : String} (h : name ∈ names) :
    Reads (readChoice names) (.str name) := by
  have htext : (Json.str name).compact.toList = '"' :: (name.toList.flatMap escapeChar ++ ['"']) :=
    toList_quote name
  refine ⟨⟨_, _, htext, ⟨by decide, by decide, by decide⟩⟩, fun rest _ => ?_⟩
  have hfinite : (Json.str name).IsFinite := fun x hx => absurd hx List.not_mem_nil
  have hquoted : readText ('"' :: (name.toList.flatMap escapeChar ++ '"' :: rest)) = .ok (name, rest) :=
    quoted_quote name rest
  rw [htext, if_pos hfinite, List.cons_append, List.append_assoc, List.singleton_append]
  change readName names _ = _
  rw [readName, hquoted]
  exact if_pos h

theorem null (read : Reader Json) : Reads (readOptional read) .null := by
  refine ⟨⟨'n', _, rfl, ⟨by decide, by decide, by decide⟩⟩, fun rest _ => ?_⟩
  have hfinite : Json.null.IsFinite := fun x hx => absurd hx List.not_mem_nil
  rw [if_pos hfinite]
  rfl

/-- A value that is there is read as such, unless its text could be that of a null. -/
theorem present {read : Reader Json} {v : Json} (h : Reads read v) (hnull : ∀ cs, v.compact.toList ≠ 'n' :: cs) :
    Reads (readOptional read) v := by
  obtain ⟨c, cs, hcs, hblank, hbegins⟩ := h.begins
  refine ⟨⟨c, cs, hcs, hblank, hbegins⟩, fun rest hrest => ?_⟩
  rw [← h.reads rest hrest, hcs, readOptional, List.cons_append, skipBlanks_cons hblank]
  split
  · next heq =>
      obtain ⟨rfl, -⟩ := List.cons.inj heq
      exact absurd hcs (hnull cs)
  · rfl

/-! ## Lists -/

def otherItems (items : List Json) : List Char := others (fun v => v.compact.toList) items

theorem toList_compactItems (v : Json) (items : List Json) :
    (compactItems (v :: items)).toList = v.compact.toList ++ otherItems items := by
  induction items generalizing v with
  | nil => exact (List.append_nil _).symm
  | cons w items ih =>
      rw [compactItems, String.toList_append, String.toList_append, ih, List.append_assoc]
      · rfl
      · exact List.cons_ne_nil _ _

theorem otherItems_cons (v : Json) (items : List Json) (rest : List Char) :
    otherItems (v :: items) ++ rest = ',' :: (v.compact.toList ++ (otherItems items ++ rest)) := by
  rw [otherItems, others, List.flatMap_cons, List.append_assoc]
  rfl

section Items

variable {read : Reader Json}

theorem itemsFrom_succ {steps : ℕ} {done : List Json} {cs cs' : List Char}
    (h : nextItem ']' done.isEmpty cs = .ok (true, cs')) :
    itemsFrom read (steps + 1) done cs = (read cs').bind fun r => itemsFrom read steps (r.1 :: done) r.2 := by
  rw [itemsFrom, h]
  rfl

theorem itemsFrom_closing (steps : ℕ) (done : List Json) (rest : List Char) :
    itemsFrom read (steps + 1) done (']' :: rest) = .ok (done, ']' :: rest) := by
  rw [itemsFrom, nextItem_closing _ (by decide)]
  rfl

private theorem itemsFrom_entry {v : Json} {items : List Json} (hv : Reads read v) {steps : ℕ} {done : List Json}
    {cs rest : List Char}
    (hnext : nextItem ']' done.isEmpty cs = .ok (true, v.compact.toList ++ (otherItems items ++ ']' :: rest)))
    (hothers : itemsFrom read steps (v.mapFloats reread :: done) (otherItems items ++ ']' :: rest) =
      if ∀ w ∈ items, w.IsFinite then
        .ok ((items.map (mapFloats reread)).reverse ++ (v.mapFloats reread :: done), ']' :: rest)
      else .error .mismatch) :
    itemsFrom read (steps + 1) done cs =
      if ∀ w ∈ v :: items, w.IsFinite then
        .ok (((v :: items).map (mapFloats reread)).reverse ++ done, ']' :: rest)
      else .error .mismatch := by
  have hends : Ends (otherItems items ++ ']' :: rest) := ends_others _ items (ends_square rest)
  rw [itemsFrom_succ hnext, hv.reads _ hends]
  by_cases hfinite : v.IsFinite
  · rw [if_pos hfinite]
    refine hothers.trans ?_
    simp only [List.forall_mem_cons, hfinite, true_and, List.map_cons, List.reverse_cons, List.append_assoc,
      List.singleton_append]
  · rw [if_neg hfinite, if_neg fun hall => hfinite (hall v List.mem_cons_self)]
    rfl

theorem itemsFrom_others {items : List Json} (h : ∀ v ∈ items, Reads read v) {steps : ℕ}
    (hsteps : items.length < steps) {done : List Json} (hdone : done.isEmpty = false) (rest : List Char) :
    itemsFrom read steps done (otherItems items ++ ']' :: rest) =
      if ∀ v ∈ items, v.IsFinite then .ok ((items.map (mapFloats reread)).reverse ++ done, ']' :: rest)
      else .error .mismatch := by
  induction items generalizing steps done with
  | nil =>
      obtain ⟨k, rfl⟩ := Nat.exists_eq_succ_of_ne_zero (Nat.ne_of_gt hsteps)
      rw [if_pos (List.forall_mem_nil _)]
      exact itemsFrom_closing k done rest
  | cons v items ih =>
      obtain ⟨k, rfl⟩ := Nat.exists_eq_succ_of_ne_zero (Nat.ne_of_gt (Nat.zero_lt_of_lt hsteps))
      obtain ⟨hv, hitems⟩ := List.forall_mem_cons.mp h
      obtain ⟨c, cs, hcs, hblank, hclosing, -⟩ := hv.begins
      refine itemsFrom_entry hv ?_ (ih hitems (Nat.lt_of_succ_lt_succ hsteps) rfl)
      rw [otherItems_cons, hdone, hcs]
      exact nextItem_comma hblank hclosing (by decide)

theorem itemsFrom_first {items : List Json} (h : ∀ v ∈ items, Reads read v) {steps : ℕ}
    (hsteps : items.length < steps) (rest : List Char) :
    itemsFrom read steps [] ((compactItems items).toList ++ ']' :: rest) =
      if ∀ v ∈ items, v.IsFinite then .ok ((items.map (mapFloats reread)).reverse, ']' :: rest)
      else .error .mismatch := by
  cases items with
  | nil =>
      obtain ⟨k, rfl⟩ := Nat.exists_eq_succ_of_ne_zero (Nat.ne_of_gt hsteps)
      rw [if_pos (List.forall_mem_nil _)]
      exact itemsFrom_closing k [] rest
  | cons v items =>
      obtain ⟨k, rfl⟩ := Nat.exists_eq_succ_of_ne_zero (Nat.ne_of_gt (Nat.zero_lt_of_lt hsteps))
      obtain ⟨hv, hitems⟩ := List.forall_mem_cons.mp h
      obtain ⟨c, cs, hcs, hblank, hclosing, -⟩ := hv.begins
      rw [← List.append_nil (List.reverse _)]
      refine itemsFrom_entry hv ?_ (itemsFrom_others hitems (Nat.lt_of_succ_lt_succ hsteps) rfl rest)
      rw [toList_compactItems, hcs, List.append_assoc]
      exact nextItem_first hblank hclosing

theorem length_le_compactItems (items : List Json) (h : ∀ v ∈ items, Reads read v) :
    items.length ≤ (compactItems items).toList.length := by
  cases items with
  | nil => exact Nat.zero_le _
  | cons v items =>
      obtain ⟨c, cs, hcs, -⟩ := (h v List.mem_cons_self).begins
      have hothers := length_le_others (fun w : Json => w.compact.toList) items
      rw [toList_compactItems, hcs, List.length_append, List.length_cons, List.length_cons, otherItems]
      omega

theorem list {items : List Json} (h : ∀ v ∈ items, Reads read v) : Reads (readList read) (.arr items) := by
  have htext : (Json.arr items).compact.toList = '[' :: ((compactItems items).toList ++ [']']) := by
    rw [compact, String.toList_append, String.toList_append, List.append_assoc]
    rfl
  refine ⟨⟨'[', _, htext, ⟨by decide, by decide, by decide⟩⟩, fun rest hrest => ?_⟩
  have hlength := length_le_compactItems items h
  have hsteps : items.length < ((compactItems items).toList ++ ']' :: rest).length + 1 := by
    rw [List.length_append]
    omega
  have hread := itemsFrom_first h hsteps rest
  rw [htext, List.cons_append, List.append_assoc, List.singleton_append]
  change (itemsFrom read (((compactItems items).toList ++ ']' :: rest).length + 1) []
    ((compactItems items).toList ++ ']' :: rest) >>= _) = _
  rw [hread]
  simp only [isFinite_arr]
  split_ifs
  · change Except.ok (Json.arr (items.map (mapFloats reread)).reverse.reverse, rest) = _
    rw [List.reverse_reverse, mapFloats, mapItems_eq]
  · rfl

end Items

end Reads

end WorkloadSynth.Json
