import Mathlib.Data.List.Count
import Mathlib.Data.List.Sort
import Mathlib.Data.String.Basic
import Mathlib.Tactic.SplitIfs
import WorkloadSynth.Stats.Tally

/-!
# Counting by name

Counting a name walks to its place among the others and stops there, so it finds the name only where the
names are in order.  Counting keeps them so, and raises the count of the name and no other
(`Tally.count_addMany`); counting one name after the other raises each count by how often its name occurs
(`Tally.count_foldl_add`).
-/

set_option autoImplicit false

namespace WorkloadSynth.Tally

def Ordered (t : Tally) : Prop := t.Pairwise fun p q => p.1 < q.1

variable {t : Tally} {name other : String} {amount : Nat}

theorem ordered_nil : Ordered [] := List.Pairwise.nil

theorem count_cons (p : String × Nat) (rest : Tally) (name : String) :
    count (p :: rest) name = if p.1 = name then p.2 else rest.count name := by
  simp only [count, List.find?_cons]
  by_cases h : p.1 = name <;> simp [h]

theorem count_eq_zero (h : ∀ p ∈ t, p.1 ≠ name) : t.count name = 0 := by
  induction t with
  | nil => rfl
  | cons p rest ih =>
      obtain ⟨hp, hrest⟩ := List.forall_mem_cons.mp h
      rw [count_cons, if_neg hp, ih hrest]

theorem mem_addMany {p : String × Nat} (h : p ∈ addMany amount name t) :
    p.1 = name ∨ ∃ q ∈ t, q.1 = p.1 := by
  induction t with
  | nil =>
      obtain rfl := List.mem_singleton.mp h
      exact .inl rfl
  | cons first rest ih =>
      unfold addMany at h
      split_ifs at h with heq hlt
      · rcases List.mem_cons.mp h with rfl | hp
        · exact .inl heq.symm
        · exact .inr ⟨p, List.mem_cons_of_mem _ hp, rfl⟩
      · rcases List.mem_cons.mp h with rfl | hp
        · exact .inl rfl
        · exact .inr ⟨p, hp, rfl⟩
      · rcases List.mem_cons.mp h with rfl | hp
        · exact .inr ⟨first, List.mem_cons_self, rfl⟩
        · rcases ih hp with hname | ⟨q, hq, hqp⟩
          · exact .inl hname
          · exact .inr ⟨q, List.mem_cons_of_mem _ hq, hqp⟩

theorem Ordered.addMany (h : t.Ordered) (amount : Nat) (name : String) : (addMany amount name t).Ordered := by
  induction t with
  | nil => exact List.pairwise_singleton _ _
  | cons first rest ih =>
      obtain ⟨hfirst, hrest⟩ := List.pairwise_cons.mp h
      unfold Tally.addMany
      split_ifs with heq hlt
      · exact List.pairwise_cons.mpr ⟨hfirst, hrest⟩
      · refine List.pairwise_cons.mpr ⟨?_, h⟩
        intro q hq
        rcases List.mem_cons.mp hq with rfl | hq
        · exact hlt
        · exact hlt.trans (hfirst q hq)
      · refine List.pairwise_cons.mpr ⟨?_, ih hrest⟩
        have hafter : first.1 < name := lt_of_le_of_ne (not_lt.mp hlt) (Ne.symm heq)
        intro q hq
        rcases mem_addMany hq with hname | ⟨r, hr, hrq⟩
        · exact hname ▸ hafter
        · exact hrq ▸ hfirst r hr

theorem count_addMany (h : t.Ordered) (amount : Nat) (name other : String) :
    (Tally.addMany amount name t).count other = t.count other + if name = other then amount else 0 := by
  induction t with
  | nil =>
      rw [Tally.addMany, count_cons]
      simp [count]
  | cons first rest ih =>
      obtain ⟨listed, n⟩ := first
      obtain ⟨hfirst, hrest⟩ := List.pairwise_cons.mp h
      by_cases heq : name = listed
      · rw [Tally.addMany, if_pos heq, count_cons, count_cons, heq]
        split_ifs <;> simp
      · by_cases hlt : name < listed
        · have hzero : count ((listed, n) :: rest) name = 0 := by
            apply count_eq_zero
            intro p hp
            rcases List.mem_cons.mp hp with rfl | hp
            · exact hlt.ne'
            · exact (hlt.trans (hfirst p hp)).ne'
          rw [Tally.addMany, if_neg heq, if_pos hlt, count_cons]
          split_ifs with hother
          · rw [← hother, hzero, Nat.zero_add]
          · rfl
        · rw [Tally.addMany, if_neg heq, if_neg hlt, count_cons, count_cons, ih hrest]
          split_ifs with hlisted hother
          · exact absurd (hother.trans hlisted.symm) heq
          · rfl
          · rfl
          · rfl

/-! ## One name after the other -/

theorem Ordered.add (h : t.Ordered) (name : String) : (t.add name).Ordered := h.addMany 1 name

theorem Ordered.foldl_add (h : t.Ordered) (names : List String) : (names.foldl Tally.add t).Ordered := by
  induction names generalizing t with
  | nil => exact h
  | cons name rest ih => exact ih (h.add name)

theorem count_foldl_add (h : t.Ordered) (names : List String) (name : String) :
    (names.foldl Tally.add t).count name = t.count name + names.count name := by
  induction names generalizing t with
  | nil => rfl
  | cons first rest ih =>
      rw [List.foldl_cons, ih (h.add first), Tally.add, count_addMany h, List.count_cons]
      simp only [beq_iff_eq]
      omega

/-! ## Sums of counts -/

theorem total_cons (p : String × Nat) (rest : Tally) : total (p :: rest) = p.2 + rest.total := rfl

theorem total_addMany (t : Tally) (amount : Nat) (name : String) :
    (addMany amount name t).total = t.total + amount := by
  induction t with
  | nil => exact Nat.add_comm amount 0
  | cons first rest ih =>
      unfold addMany
      split_ifs
      · simp only [total_cons]
        omega
      · simp only [total_cons]
        omega
      · simp only [total_cons, ih]
        omega

theorem total_foldl_add (t : Tally) (names : List String) :
    (names.foldl Tally.add t).total = t.total + names.length := by
  induction names generalizing t with
  | nil => rfl
  | cons first rest ih =>
      rw [List.foldl_cons, ih, Tally.add, total_addMany, List.length_cons]
      omega

/-! ## Listed names -/

def Positive (t : Tally) : Prop := ∀ p ∈ t, 0 < p.2

theorem Positive.add (h : t.Positive) (name : String) : (t.add name).Positive := by
  unfold Tally.add
  induction t with
  | nil => exact List.forall_mem_singleton.mpr Nat.one_pos
  | cons first rest ih =>
      obtain ⟨hfirst, hrest⟩ := List.forall_mem_cons.mp h
      unfold Tally.addMany
      split_ifs
      · exact List.forall_mem_cons.mpr ⟨Nat.succ_pos _, hrest⟩
      · exact List.forall_mem_cons.mpr ⟨Nat.one_pos, h⟩
      · exact List.forall_mem_cons.mpr ⟨hfirst, ih hrest⟩

theorem Positive.foldl_add (h : t.Positive) (names : List String) : (names.foldl Tally.add t).Positive := by
  induction names generalizing t with
  | nil => exact h
  | cons name rest ih => exact ih (h.add name)

theorem Ordered.count_of_mem (h : t.Ordered) {p : String × Nat} (hp : p ∈ t) : t.count p.1 = p.2 := by
  induction t with
  | nil => cases hp
  | cons first rest ih =>
      obtain ⟨hfirst, hrest⟩ := List.pairwise_cons.mp h
      rw [count_cons]
      rcases List.mem_cons.mp hp with rfl | hp
      · rw [if_pos rfl]
      · rw [if_neg (hfirst p hp).ne, ih hrest hp]

theorem mem_of_count {n : Nat} (h : t.count name = n) (hn : 0 < n) : (name, n) ∈ t := by
  induction t with
  | nil => exact absurd h hn.ne
  | cons first rest ih =>
      rw [count_cons] at h
      split_ifs at h with hname
      · exact List.mem_cons.mpr (.inl (Prod.ext hname.symm h.symm))
      · exact List.mem_cons_of_mem _ (ih h)

/-- The names that occur are listed, each with how often it occurs, and no others. -/
theorem mem_foldl_add {names : List String} {p : String × Nat} :
    p ∈ names.foldl Tally.add [] ↔ 0 < p.2 ∧ names.count p.1 = p.2 := by
  have hpositive : Positive [] := List.forall_mem_nil _
  have hcount : (names.foldl Tally.add []).count p.1 = names.count p.1 :=
    (count_foldl_add ordered_nil names p.1).trans (Nat.zero_add _)
  constructor
  · intro hp
    exact ⟨hpositive.foldl_add names p hp, hcount ▸ (ordered_nil.foldl_add names).count_of_mem hp⟩
  · rintro ⟨hpos, hp⟩
    exact mem_of_count (hcount.trans hp) hpos

theorem foldl_add_perm {names names' : List String} (h : names.Perm names') :
    names.foldl Tally.add [] = names'.foldl Tally.add [] := by
  have hasymm : Std.Antisymm fun p q : String × Nat => p.1 < q.1 :=
    ⟨fun p q hpq hqp => absurd hpq hqp.not_gt⟩
  have hirrefl : Std.Irrefl fun p q : String × Nat => p.1 < q.1 := ⟨fun p => lt_irrefl p.1⟩
  refine List.Pairwise.eq_of_mem_iff (ordered_nil.foldl_add names) (ordered_nil.foldl_add names') fun p => ?_
  rw [mem_foldl_add, mem_foldl_add, h.count_eq]

/-- Values counted under their names: each name once, and none that counts nothing. -/
structure CountsBy {β : Type} (t : Tally) (name : β → String) (occurrences : β → Nat) : Prop where
  ordered : t.Ordered
  count : ∀ b, t.count (name b) = occurrences b
  listed : ∀ p ∈ t, 0 < p.2 ∧ ∃ b, name b = p.1

theorem countsBy_foldl_add {β : Type} [BEq β] [LawfulBEq β] {name : β → String}
    (hname : Function.Injective name) (values : List β) :
    ((values.map name).foldl Tally.add []).CountsBy name values.count where
  ordered := ordered_nil.foldl_add _
  count b := by
    rw [count_foldl_add ordered_nil, List.count_map_of_injective _ _ hname]
    exact Nat.zero_add _
  listed p hp := by
    obtain ⟨hpos, hcount⟩ := mem_foldl_add.mp hp
    obtain ⟨b, -, hb⟩ := List.mem_map.mp (List.count_pos_iff.mp (hcount ▸ hpos))
    exact ⟨hpos, b, hb⟩

end WorkloadSynth.Tally
