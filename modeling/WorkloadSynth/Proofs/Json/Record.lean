import WorkloadSynth.Proofs.Json.Reads
import Mathlib.Data.List.Forall2

/-!
# Records read back by the names of their fields

A record is written with its fields in order, and each field is found again by its name.  As long as the names
differ, a field that is read goes to its own slot (`find?_of_nodup`), no field comes twice, and putting the fields
into the order of the slots gives back the order they were written in.
-/

set_option autoImplicit false

namespace WorkloadSynth.Json

theorem find?_of_nodup {α : Type} (key : α → String) {entries : List α} (h : (entries.map key).Nodup) {a : α}
    (ha : a ∈ entries) : entries.find? (key · = key a) = some a := by
  induction entries with
  | nil => exact absurd ha List.not_mem_nil
  | cons b entries ih =>
      rw [List.map_cons, List.nodup_cons] at h
      rcases List.mem_cons.mp ha with rfl | ha
      · exact List.find?_cons_of_pos (decide_eq_true rfl)
      · have hne : key b ≠ key a := fun heq => h.1 (heq ▸ List.mem_map_of_mem ha)
        rw [List.find?_cons_of_neg (by simpa using hne)]
        exact ih h.2 ha

def fieldText (p : String × Json) : List Char := (quote p.1).toList ++ ':' :: p.2.compact.toList

def otherFields (fields : List (String × Json)) : List Char := others fieldText fields

theorem toList_field (name : String) (v : Json) :
    (quote name ++ ":" ++ v.compact).toList = fieldText (name, v) := by
  have hcolon : ":".toList = [':'] := rfl
  rw [String.toList_append, String.toList_append, hcolon, List.append_assoc, List.singleton_append, fieldText]

theorem toList_compactFields (p : String × Json) (fields : List (String × Json)) :
    (compactFields (p :: fields)).toList = fieldText p ++ otherFields fields := by
  induction fields generalizing p with
  | nil =>
      obtain ⟨name, v⟩ := p
      rw [compactFields, toList_field, otherFields, others, List.flatMap_nil, List.append_nil]
  | cons q fields ih =>
      obtain ⟨name, v⟩ := p
      have hcomma : ",".toList = [','] := rfl
      rw [compactFields, String.toList_append, String.toList_append, toList_field, ih, hcomma, List.append_assoc,
        List.singleton_append, otherFields, otherFields, others, others, List.flatMap_cons, List.cons_append]
      · exact List.cons_ne_nil _ _

theorem otherFields_cons (p : String × Json) (fields : List (String × Json)) (rest : List Char) :
    otherFields (p :: fields) ++ rest = ',' :: (fieldText p ++ (otherFields fields ++ rest)) := by
  rw [otherFields, others, List.flatMap_cons, List.append_assoc]
  rfl

structure Slot.Takes (slot : Slot) (p : String × Json) : Prop where
  name : slot.name = p.1
  reads : Reads slot.read p.2

section ByName

variable {slots : List Slot}

theorem slotsByName_closing (steps : ℕ) (first : Bool) (done : List (String × Json)) (rest : List Char) :
    slotsByName slots (steps + 1) first done ('\x7d' :: rest) = .ok (done, rest) := by
  rw [slotsByName, nextItem_closing _ (by decide)]
  rfl

theorem slotsByName_succ {slot : Slot} {p : String × Json} (h : slot.Takes p)
    (hslot : slots.find? (·.name = p.1) = some slot) {steps : ℕ} {first : Bool} {done : List (String × Json)}
    (hnew : done.any (·.1 = p.1) = false) {cs rest : List Char} (hrest : Ends rest)
    (hnext : nextItem '\x7d' first cs = .ok (true, fieldText p ++ rest)) :
    slotsByName slots (steps + 1) first done cs =
      if p.2.IsFinite then slotsByName slots steps false ((p.1, p.2.mapFloats reread) :: done) rest
      else .error .mismatch := by
  have htext : fieldText p ++ rest =
      '"' :: (p.1.toList.flatMap escapeChar ++ '"' :: ':' :: (p.2.compact.toList ++ rest)) := by
    simp only [fieldText, toList_quote, List.cons_append, List.append_assoc, List.nil_append]
  rw [slotsByName, hnext, htext]
  change (quoted (p.1.toList.flatMap escapeChar ++ '"' :: ':' :: (p.2.compact.toList ++ rest)) >>= _) = _
  rw [quoted_quote]
  dsimp only [bind, Except.bind]
  rw [hslot]
  dsimp only
  have hcolon : expectColon (':' :: (p.2.compact.toList ++ rest)) = .ok (p.2.compact.toList ++ rest) := rfl
  rw [hnew, if_neg Bool.false_ne_true, hcolon]
  dsimp only
  rw [h.reads.reads rest hrest]
  split_ifs <;> rfl

def IsKnown (slots : List Slot) (p : String × Json) : Prop :=
  ∃ slot, slots.find? (·.name = p.1) = some slot ∧ slot.Takes p

private theorem slotsByName_entry {p : String × Json} {fields : List (String × Json)} (hp : IsKnown slots p)
    {steps : ℕ} {first : Bool} {done : List (String × Json)} {cs rest : List Char}
    (hnew : p.1 ∉ done.map Prod.fst)
    (hnext : nextItem '\x7d' first cs = .ok (true, fieldText p ++ (otherFields fields ++ '\x7d' :: rest)))
    (hothers : slotsByName slots steps false ((p.1, p.2.mapFloats reread) :: done)
        (otherFields fields ++ '\x7d' :: rest) =
      if ∀ q ∈ fields, q.2.IsFinite then
        .ok ((mapFields reread fields).reverse ++ (p.1, p.2.mapFloats reread) :: done, rest)
      else .error .mismatch) :
    slotsByName slots (steps + 1) first done cs =
      if ∀ q ∈ p :: fields, q.2.IsFinite then .ok ((mapFields reread (p :: fields)).reverse ++ done, rest)
      else .error .mismatch := by
  obtain ⟨slot, hslot, htakes⟩ := hp
  have hany : done.any (·.1 = p.1) = false := by
    rw [List.any_eq_false]
    intro q hq heq
    exact hnew (of_decide_eq_true heq ▸ List.mem_map_of_mem hq)
  have hends : Ends (otherFields fields ++ '\x7d' :: rest) := ends_others _ fields (ends_curly rest)
  rw [slotsByName_succ htakes hslot hany hends hnext, hothers]
  by_cases hfinite : p.2.IsFinite
  · simp only [hfinite, List.forall_mem_cons, true_and, if_true, mapFields, List.reverse_cons, List.append_assoc,
      List.singleton_append]
  · rw [if_neg hfinite, if_neg fun hall => hfinite (hall p List.mem_cons_self)]

theorem exists_fieldText (p : String × Json) : ∃ cs, fieldText p = '"' :: cs := by
  rw [fieldText, toList_quote]
  exact ⟨_, rfl⟩

theorem slotsByName_others {fields : List (String × Json)} (h : ∀ p ∈ fields, IsKnown slots p) {steps : ℕ}
    (hsteps : fields.length < steps) {done : List (String × Json)}
    (hnames : (fields.map Prod.fst ++ done.map Prod.fst).Nodup) (rest : List Char) :
    slotsByName slots steps false done (otherFields fields ++ '\x7d' :: rest) =
      if ∀ p ∈ fields, p.2.IsFinite then .ok ((mapFields reread fields).reverse ++ done, rest)
      else .error .mismatch := by
  induction fields generalizing steps done with
  | nil =>
      obtain ⟨k, rfl⟩ := Nat.exists_eq_succ_of_ne_zero (Nat.ne_of_gt hsteps)
      rw [if_pos (List.forall_mem_nil _)]
      exact slotsByName_closing k false done rest
  | cons p fields ih =>
      obtain ⟨k, rfl⟩ := Nat.exists_eq_succ_of_ne_zero (Nat.ne_of_gt (Nat.zero_lt_of_lt hsteps))
      obtain ⟨hp, hfields⟩ := List.forall_mem_cons.mp h
      obtain ⟨cs, hcs⟩ := exists_fieldText p
      have hnew : p.1 ∉ done.map Prod.fst := by
        intro hmem
        exact (List.nodup_cons.mp hnames).1 (List.mem_append_right _ hmem)
      refine slotsByName_entry hp hnew ?_
        (ih hfields (Nat.lt_of_succ_lt_succ hsteps) (List.perm_middle.nodup_iff.mpr hnames))
      rw [otherFields_cons, hcs]
      exact nextItem_comma (by decide) (by decide) (by decide)

theorem slotsByName_first {fields : List (String × Json)} (h : ∀ p ∈ fields, IsKnown slots p) {steps : ℕ}
    (hsteps : fields.length < steps) (hnames : (fields.map Prod.fst).Nodup) (rest : List Char) :
    slotsByName slots steps true [] ((compactFields fields).toList ++ '\x7d' :: rest) =
      if ∀ p ∈ fields, p.2.IsFinite then .ok ((mapFields reread fields).reverse, rest)
      else .error .mismatch := by
  cases fields with
  | nil =>
      obtain ⟨k, rfl⟩ := Nat.exists_eq_succ_of_ne_zero (Nat.ne_of_gt hsteps)
      rw [if_pos (List.forall_mem_nil _)]
      exact slotsByName_closing k true [] rest
  | cons p fields =>
      obtain ⟨k, rfl⟩ := Nat.exists_eq_succ_of_ne_zero (Nat.ne_of_gt (Nat.zero_lt_of_lt hsteps))
      obtain ⟨hp, hfields⟩ := List.forall_mem_cons.mp h
      obtain ⟨cs, hcs⟩ := exists_fieldText p
      have hothers : (fields.map Prod.fst ++ [(p.1, p.2.mapFloats reread)].map Prod.fst).Nodup :=
        (List.perm_append_singleton _ _).nodup_iff.mpr hnames
      rw [← List.append_nil (List.reverse _)]
      refine slotsByName_entry hp List.not_mem_nil ?_
        (slotsByName_others hfields (Nat.lt_of_succ_lt_succ hsteps) hothers rest)
      rw [toList_compactFields, hcs, List.append_assoc]
      exact nextItem_first (by decide) (by decide)

end ByName

theorem map_fst_mapFields (f : Float → Float) (fields : List (String × Json)) :
    (mapFields f fields).map Prod.fst = fields.map Prod.fst := by
  rw [mapFields_eq, List.map_map]
  rfl

theorem arrange_eq {slots : List Slot} {fields : List (String × Json)}
    (h : List.Forall₂ (fun slot p => slot.name = p.1) slots fields) {done : List (String × Json)}
    (hnames : (done.map Prod.fst).Nodup) (hdone : ∀ p ∈ fields, p ∈ done) : arrange slots done = .ok fields := by
  induction h with
  | nil => rfl
  | @cons slot p slots fields hname _ ih =>
      obtain ⟨hp, hfields⟩ := List.forall_mem_cons.mp hdone
      have hfind : done.find? (·.1 = slot.name) = some p := by
        rw [hname]
        exact find?_of_nodup Prod.fst hnames hp
      rw [arrange, List.mapM_cons, hfind]
      change (arrange slots done >>= fun rest => _) = _
      rw [ih hfields]
      rfl

section Fields

variable {slots : List Slot} {fields : List (String × Json)}

theorem map_fst_of_takes (h : List.Forall₂ Slot.Takes slots fields) :
    fields.map Prod.fst = slots.map Slot.name := by
  induction h with
  | nil => rfl
  | cons hp _ ih => rw [List.map_cons, List.map_cons, ih, hp.name]

theorem isKnown_of_takes (h : List.Forall₂ Slot.Takes slots fields) (hnames : (slots.map Slot.name).Nodup)
    (p : String × Json) (hp : p ∈ fields) : IsKnown slots p := by
  obtain ⟨slot, hslot, htakes⟩ : ∃ slot ∈ slots, slot.Takes p := by
    clear hnames
    induction h with
    | nil => exact absurd hp List.not_mem_nil
    | cons hq _ ih =>
        rcases List.mem_cons.mp hp with rfl | hp
        · exact ⟨_, List.mem_cons_self, hq⟩
        · obtain ⟨slot, hslot, htakes⟩ := ih hp
          exact ⟨slot, List.mem_cons_of_mem _ hslot, htakes⟩
  exact ⟨slot, htakes.name ▸ find?_of_nodup Slot.name hnames hslot, htakes⟩

/-- The fields that were read, which came in the opposite order, are put back into their own. -/
theorem arrange_mapFields (h : List.Forall₂ Slot.Takes slots fields) (hnames : (slots.map Slot.name).Nodup)
    (f : Float → Float) : arrange slots (mapFields f fields).reverse = .ok (mapFields f fields) := by
  have hslots : List.Forall₂ (fun slot p => slot.name = p.1) slots (mapFields f fields) := by
    rw [mapFields_eq, List.forall₂_map_right_iff]
    exact h.imp fun _ _ htakes => htakes.name
  refine arrange_eq hslots ?_ fun p hp => List.mem_reverse.mpr hp
  rw [List.map_reverse, List.nodup_reverse, map_fst_mapFields, map_fst_of_takes h]
  exact hnames

theorem length_le_compactFields (fields : List (String × Json)) :
    fields.length ≤ (compactFields fields).toList.length := by
  cases fields with
  | nil => exact Nat.zero_le _
  | cons p fields =>
      obtain ⟨cs, hcs⟩ := exists_fieldText p
      have hothers := length_le_others fieldText fields
      rw [toList_compactFields, hcs, List.length_append, List.length_cons, List.length_cons, otherFields]
      omega

theorem toList_compact_obj (fields : List (String × Json)) :
    (Json.obj fields).compact.toList = '\x7b' :: ((compactFields fields).toList ++ ['\x7d']) := by
  rw [compact, String.toList_append, String.toList_append, List.append_assoc]
  rfl

theorem Reads.record (h : List.Forall₂ Slot.Takes slots fields) (hnames : (slots.map Slot.name).Nodup) :
    Reads (readRecord slots) (.obj fields) := by
  have htext := toList_compact_obj fields
  refine ⟨⟨'\x7b', _, htext, ⟨by decide, by decide, by decide⟩⟩, fun rest _ => ?_⟩
  have hsteps : fields.length < ((compactFields fields).toList ++ '\x7d' :: rest).length + 1 := by
    have hlength := length_le_compactFields fields
    rw [List.length_append]
    omega
  have hread := slotsByName_first (isKnown_of_takes h hnames) hsteps (map_fst_of_takes h ▸ hnames) rest
  rw [htext, List.cons_append, List.append_assoc, List.singleton_append]
  change (slotsByName slots (((compactFields fields).toList ++ '\x7d' :: rest).length + 1) true []
    ((compactFields fields).toList ++ '\x7d' :: rest) >>= _) = _
  rw [hread]
  simp only [isFinite_obj]
  split_ifs
  · change (arrange slots (mapFields reread fields).reverse >>= _) = _
    rw [arrange_mapFields h hnames]
    rfl
  · rfl

end Fields

end WorkloadSynth.Json
