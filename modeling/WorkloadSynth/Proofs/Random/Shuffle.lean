import Mathlib.Data.Nat.Notation
import Mathlib.Tactic.SplitIfs
import WorkloadSynth.Random.Shuffle

/-!
# Shuffles are permutations that look at nothing

Every exchange is between two positions of the pool, so carrying exchanges out keeps each element as
often as it was there.  The exchanges are drawn from the size of the pool alone: a shuffle commutes with
every function of the elements.
-/

set_option autoImplicit false

namespace WorkloadSynth.Random

variable {β γ : Type}

theorem swapIfInBounds_perm (xs : Array β) (i j : ℕ) : (xs.swapIfInBounds i j).Perm xs := by
  rw [Array.swapIfInBounds_def]
  split_ifs
  · exact Array.swap_perm _ _
  · exact Array.Perm.refl xs
  · exact Array.Perm.refl xs

theorem swapIfInBounds_map (f : β → γ) (xs : Array β) (i j : ℕ) :
    (xs.map f).swapIfInBounds i j = (xs.swapIfInBounds i j).map f := by
  apply Array.ext
  · simp
  · intro k hk hk'
    simp only [Array.getElem_swapIfInBounds, Array.getElem_map, Array.size_map]
    split_ifs <;> rfl

theorem rearrange_perm (swaps : List (ℕ × ℕ)) (pool : Array β) : (rearrange swaps pool).Perm pool := by
  induction swaps generalizing pool with
  | nil => exact Array.Perm.refl pool
  | cons p swaps ih => exact (ih _).trans (swapIfInBounds_perm pool p.1 p.2)

theorem rearrange_map (f : β → γ) (swaps : List (ℕ × ℕ)) (pool : Array β) :
    rearrange swaps (pool.map f) = (rearrange swaps pool).map f := by
  induction swaps generalizing pool with
  | nil => rfl
  | cons p swaps ih =>
      change rearrange swaps ((pool.map f).swapIfInBounds p.1 p.2) = _
      rw [swapIfInBounds_map, ih]
      rfl

theorem shuffle_perm (g : Generator) (pool : Array β) : (shuffle g pool).Perm pool :=
  rearrange_perm _ pool

theorem shuffle_map (g : Generator) (f : β → γ) (pool : Array β) :
    shuffle g (pool.map f) = (shuffle g pool).map f := by
  unfold shuffle
  rw [Array.size_map, rearrange_map]

end WorkloadSynth.Random
