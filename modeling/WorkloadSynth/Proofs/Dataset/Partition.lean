import Mathlib.Data.List.Forall2
import WorkloadSynth.Dataset.Split
import WorkloadSynth.Proofs.Random.Shuffle

/-!
# The parts of a dataset

The two bounds cut a list into three parts that make up the list again.  Dealing a pool therefore neither
loses a sample nor repeats one, whatever the size of the pool, and it commutes with every function of
the samples: the order depends on the seed and the size alone.  Two pools of one size are therefore dealt
alike, and what relates them entry by entry relates their parts position by position.
-/

set_option autoImplicit false

namespace WorkloadSynth.Dataset

variable {α β γ : Type}

/-! ## Cutting -/

section Cut

variable {δ : Type}

theorem cut_append (pool : List γ) : (cut pool).1 ++ (cut pool).2.1 ++ (cut pool).2.2 = pool := by
  have hbounds : pool.length * 8 / 10 ≤ pool.length * 9 / 10 := by omega
  have hfirst : pool.take (pool.length * 8 / 10) =
      (pool.take (pool.length * 9 / 10)).take (pool.length * 8 / 10) := by
    rw [List.take_take, Nat.min_eq_left hbounds]
  simp only [cut, bounds]
  rw [hfirst, List.take_append_drop, List.take_append_drop]

theorem length_cut (pool : List γ) :
    (cut pool).1.length = 8 * pool.length / 10 ∧
      (cut pool).2.1.length = 9 * pool.length / 10 - 8 * pool.length / 10 ∧
      (cut pool).2.2.length = pool.length - 9 * pool.length / 10 := by
  simp only [cut, bounds, List.length_take, List.length_drop, Nat.mul_comm pool.length]
  exact ⟨by omega, by omega, trivial⟩

theorem cut_map (f : γ → δ) (pool : List γ) :
    cut (pool.map f) = ((cut pool).1.map f, (cut pool).2.1.map f, (cut pool).2.2.map f) := by
  simp only [cut, bounds, List.length_map, List.map_take, List.map_drop]

end Cut

/-! ## Dealing -/

def map (f : Sample α → Sample β) (d : Dataset α) : Dataset β where
  mode := d.mode
  length := d.length
  train := d.train.map f
  validation := d.validation.map f
  test := d.test.map f

variable (length : ℕ) (mode : Mode)

theorem samples_ofOrder (order : List (Sample α)) : (ofOrder order length mode).samples = order :=
  cut_append order

theorem ofOrder_map (f : Sample α → Sample β) (order : List (Sample α)) :
    ofOrder (order.map f) length mode = (ofOrder order length mode).map f := by
  simp only [ofOrder, cut_map, map]

variable (seed : UInt64)

theorem samples_deal_perm (pool : Array (Sample α)) :
    (deal pool seed length mode).samples.Perm pool.toList := by
  unfold deal
  rw [samples_ofOrder]
  exact Array.perm_iff_toList_perm.mp (Random.shuffle_perm _ pool)

theorem length_deal (pool : Array (Sample α)) :
    (deal pool seed length mode).train.length = 8 * pool.size / 10 ∧
      (deal pool seed length mode).validation.length = 9 * pool.size / 10 - 8 * pool.size / 10 ∧
      (deal pool seed length mode).test.length = pool.size - 9 * pool.size / 10 := by
  have hsize := (Random.shuffle_perm (Random.Generator.ofStream seed .shuffle 0) pool).size_eq
  rw [← hsize, ← Array.length_toList]
  exact length_cut _

theorem deal_map (f : Sample α → Sample β) (pool : Array (Sample α)) :
    deal (pool.map f) seed length mode = (deal pool seed length mode).map f := by
  unfold deal
  rw [Random.shuffle_map, Array.toList_map, ofOrder_map]

/-! ## Two pools at once -/

section Pairs

theorem exists_pairs {R : β → γ → Prop} {xs : List β} {ys : List γ} (h : List.Forall₂ R xs ys) :
    ∃ pairs : List (β × γ), pairs.map Prod.fst = xs ∧ pairs.map Prod.snd = ys ∧ ∀ p ∈ pairs, R p.1 p.2 := by
  induction h with
  | nil => exact ⟨[], rfl, rfl, nofun⟩
  | cons hxy _ ih =>
      obtain ⟨pairs, hfst, hsnd, hall⟩ := ih
      refine ⟨(_, _) :: pairs, by rw [List.map_cons, hfst], by rw [List.map_cons, hsnd], ?_⟩
      intro p hp
      rcases List.mem_cons.mp hp with rfl | hp
      · exact hxy
      · exact hall p hp

theorem forall₂_cut_map {δ : Type} {R : β → γ → Prop} {f : δ → β} {g : δ → γ} {pool : List δ}
    (h : ∀ x ∈ pool, R (f x) (g x)) :
    List.Forall₂ R (cut (pool.map f)).1 (cut (pool.map g)).1 ∧
      List.Forall₂ R (cut (pool.map f)).2.1 (cut (pool.map g)).2.1 ∧
      List.Forall₂ R (cut (pool.map f)).2.2 (cut (pool.map g)).2.2 := by
  have hmem : ∀ x ∈ (cut pool).1 ++ (cut pool).2.1 ++ (cut pool).2.2, R (f x) (g x) := by
    rwa [cut_append]
  simp only [cut_map, List.forall₂_map_left_iff, List.forall₂_map_right_iff, List.forall₂_same]
  exact ⟨fun x hx => hmem x (by simp [hx]), fun x hx => hmem x (by simp [hx]),
    fun x hx => hmem x (by simp [hx])⟩

end Pairs

/-- What holds of two pools entry by entry still does after dealing, position by position. -/
theorem deal_forall₂ {R : Sample α → Sample β → Prop} {pool : List (Sample α)} {pool' : List (Sample β)}
    (h : List.Forall₂ R pool pool') (p : Part) :
    List.Forall₂ R ((deal pool.toArray seed length mode).part p)
      ((deal pool'.toArray seed length mode).part p) := by
  obtain ⟨pairs, rfl, rfl, hall⟩ := exists_pairs h
  have hshuffled : ∀ x ∈ (Random.shuffle (Random.Generator.ofStream seed .shuffle 0) pairs.toArray).toList,
      R x.1 x.2 := by
    intro x hx
    have hperm := Array.perm_iff_toList_perm.mp
      (Random.shuffle_perm (Random.Generator.ofStream seed .shuffle 0) pairs.toArray)
    exact hall x (hperm.mem_iff.mp hx)
  obtain ⟨htrain, hvalidation, htest⟩ := forall₂_cut_map hshuffled
  simp only [deal, ← List.map_toArray, Random.shuffle_map, Array.toList_map]
  cases p with
  | train => exact htrain
  | validation => exact hvalidation
  | test => exact htest

end WorkloadSynth.Dataset
