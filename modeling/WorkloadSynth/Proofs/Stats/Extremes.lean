import Mathlib.Data.List.Induction
import WorkloadSynth.Proofs.Number.Order
import WorkloadSynth.Stats.Batch
import WorkloadSynth.Stats.Running

/-!
# Extremes of a series that arrives value by value

`Extreme R values kept` says that `kept` is the best defined value of a series for the order `R`, or that
the series has none.  Pushing a value keeps this, for the least value as for the greatest
(`Running.extreme_least`, `Running.extreme_greatest`).  The best of a series does not depend on its order,
and two that are best are as good as each other (`Extreme.perm`, `Extreme.unique`).
-/

set_option autoImplicit false

namespace WorkloadSynth.Stats

variable {α : Type} [Scalar α]

/-! ## Best values -/

def Extreme (R : α → α → Prop) (values : List α) : Option α → Prop
  | none => ∀ v ∈ values, ¬ v ≤ v
  | some m => m ∈ values ∧ m ≤ m ∧ ∀ v ∈ values, v ≤ v → R m v

structure Picks (R : α → α → Prop) (better : α → α → α) : Prop where
  one : ∀ a b, better a b = a ∨ better a b = b
  best : ∀ {a b}, a ≤ a → b ≤ b → R (better a b) a ∧ R (better a b) b
  trans : ∀ {a b c}, R a b → R b c → R a c

namespace Extreme

variable {R : α → α → Prop} {values order : List α} {kept : Option α}

theorem perm (h : Extreme R values kept) (hperm : order.Perm values) : Extreme R order kept := by
  cases kept with
  | none => exact fun v hv => h v (hperm.mem_iff.mp hv)
  | some m => exact ⟨hperm.mem_iff.mpr h.1, h.2.1, fun v hv => h.2.2 v (hperm.mem_iff.mp hv)⟩

/-- Two values that are best are as good as each other, and so related however such values are. -/
theorem unique {S : α → α → Prop} (hS : ∀ m n, R m n → R n m → S m n) {other : Option α}
    (h : Extreme R values kept) (h' : Extreme R values other) : Option.Rel S kept other := by
  cases kept with
  | none =>
      cases other with
      | none => exact .none
      | some n => exact absurd h'.2.1 (h n h'.1)
  | some m =>
      cases other with
      | none => exact absurd h.2.1 (h' m h.1)
      | some n => exact .some (hS m n (h.2.2 n h'.1 h'.2.1) (h'.2.2 m h.1 h.2.1))

theorem eq_of_antisymm (hR : ∀ m n, R m n → R n m → m = n) {other : Option α}
    (h : Extreme R values kept) (h' : Extreme R values other) : kept = other := by
  cases h.unique hR h' with
  | none => rfl
  | some hmn => rw [hmn]

theorem keep {better : α → α → α} (hbetter : Picks R better) (h : Extreme R values kept) (v : α) :
    Extreme R (values ++ [v]) (Running.keep better kept v) := by
  have split {P : α → Prop} (hvalues : ∀ w ∈ values, P w) (hlast : P v) : ∀ w ∈ values ++ [v], P w := by
    intro w hw
    rcases List.mem_append.mp hw with hw | hw
    · exact hvalues w hw
    · exact List.mem_singleton.mp hw ▸ hlast
  by_cases hv : v ≤ v
  · have hdefined : ¬ Scalar.IsUndefined v := not_not_intro hv
    cases kept with
    | none =>
        rw [Running.keep, if_neg hdefined]
        refine ⟨by simp, hv, split (fun w hw hww => absurd hww (h w hw)) fun _ => ?_⟩
        have hself := (hbetter.best hv hv).1
        rcases hbetter.one v v with heq | heq <;> rwa [heq] at hself
    | some m =>
        obtain ⟨hmem, hm, hall⟩ := h
        obtain ⟨hleft, hright⟩ := hbetter.best hm hv
        rw [Running.keep, if_neg hdefined]
        refine ⟨?_, ?_, split (fun w hw hww => hbetter.trans hleft (hall w hw hww)) fun _ => hright⟩
        · rcases hbetter.one m v with heq | heq <;> simp [heq, hmem]
        · rcases hbetter.one m v with heq | heq <;> rwa [heq]
  · have hundefined : Scalar.IsUndefined v := hv
    cases kept with
    | none =>
        rw [Running.keep, if_pos hundefined]
        exact split h hv
    | some m =>
        rw [Running.keep, if_pos hundefined]
        exact ⟨List.mem_append_left _ h.1, h.2.1, split h.2.2 fun hvv => absurd hvv hv⟩

end Extreme

/-! ## Running statistics -/

namespace Running

theorem ofList_concat (values : List α) (v : α) : ofList (values ++ [v]) = (ofList values).push v := by
  rw [ofList, List.foldl_append]
  rfl

theorem count_ofList (values : List α) : (ofList values).count = values.length := by
  induction values using List.reverseRecOn with
  | nil => rfl
  | append_singleton values v ih =>
      rw [ofList_concat, List.length_append, List.length_singleton, ← ih]
      rfl

variable [LawfulOrder α]

omit [LawfulOrder α] in
theorem extreme_ofList {R : α → α → Prop} {better : α → α → α} (hbetter : Picks R better)
    {kept : Running α → Option α} (hempty : kept empty = none)
    (hpush : ∀ r v, kept (r.push v) = keep better (kept r) v) (values : List α) :
    Extreme R values (kept (ofList values)) := by
  induction values using List.reverseRecOn with
  | nil =>
      have hnone : kept (ofList []) = none := hempty
      rw [hnone]
      exact nofun
  | append_singleton values v ih =>
      rw [ofList_concat, hpush]
      exact ih.keep hbetter v

theorem picks_smaller : Picks (fun a b : α => a ≤ b) Scalar.smaller :=
  ⟨Scalar.smaller_eq_or, Scalar.smaller_spec, LawfulOrder.le_trans⟩

theorem picks_larger : Picks (fun a b : α => b ≤ a) Scalar.larger :=
  ⟨Scalar.larger_eq_or, Scalar.larger_spec, fun h h' => LawfulOrder.le_trans h' h⟩

theorem extreme_least (values : List α) : Extreme (fun a b => a ≤ b) values (ofList values).least :=
  extreme_ofList picks_smaller rfl (fun _ _ => rfl) values

theorem extreme_greatest (values : List α) :
    Extreme (fun a b => b ≤ a) values (ofList values).greatest :=
  extreme_ofList picks_larger rfl (fun _ _ => rfl) values

end Running

/-! ## Series at hand as a whole -/

variable [LawfulOrder α]

theorem le_foldl_larger {v : α} {rest : List α} (h : ∀ w ∈ v :: rest, w ≤ w) :
    ∀ w ∈ v :: rest, w ≤ rest.foldl Scalar.larger v := by
  induction rest generalizing v with
  | nil =>
      intro w hw
      obtain rfl := List.mem_singleton.mp hw
      exact h w hw
  | cons u rest ih =>
      obtain ⟨hv, hrest⟩ := List.forall_mem_cons.mp h
      obtain ⟨hu, hrest⟩ := List.forall_mem_cons.mp hrest
      obtain ⟨hleft, hright⟩ := Scalar.larger_spec hv hu
      have hnext := ih (List.forall_mem_cons.mpr ⟨LawfulOrder.defined_right hleft, hrest⟩)
      obtain ⟨hhead, htail⟩ := List.forall_mem_cons.mp hnext
      exact List.forall_mem_cons.mpr ⟨LawfulOrder.le_trans hleft hhead,
        List.forall_mem_cons.mpr ⟨LawfulOrder.le_trans hright hhead, htail⟩⟩

theorem le_maximum {values : List α} (h : ∀ v ∈ values, v ≤ v) : ∀ v ∈ values, v ≤ maximum values := by
  cases values with
  | nil => exact nofun
  | cons v rest => exact le_foldl_larger h

end WorkloadSynth.Stats
