import Mathlib.Tactic.SplitIfs
import WorkloadSynth.Number.Scalar

/-!
# The order of scalars

`LawfulOrder` collects what clamping needs to know of an order: it is transitive, total on the values
that are defined, and nothing undefined stands in it.  Equal values need not be the same, for the two
zeros of floating point are not.  From these laws follows what `confine`, `clamp` and `larger` give.
-/

set_option autoImplicit false

namespace WorkloadSynth

/-! ## Computations that may stop -/

theorem RangeFault.eq (f g : RangeFault) : f = g := by
  cases f
  cases g
  rfl

theorem eq_outOfRange_iff {β : Type} {x : Except RangeFault β} : x = .error .outOfRange ↔ ¬ ∃ b, x = .ok b := by
  cases x with
  | error fault => simp [RangeFault.eq fault .outOfRange]
  | ok b => simp

theorem bind_eq_ok {ε β γ : Type} {x : Except ε β} {f : β → Except ε γ} {c : γ} :
    x >>= f = .ok c ↔ ∃ b, x = .ok b ∧ f b = .ok c := by
  cases x with
  | error e => exact ⟨nofun, nofun⟩
  | ok b => exact ⟨fun h => ⟨b, rfl, h⟩, fun ⟨_, hb, h⟩ => Except.ok.inj hb ▸ h⟩

/-! ## The laws -/

/-- The laws of an order in which every comparison with an undefined value fails. -/
class LawfulOrder (α : Type) [Scalar α] : Prop where
  defined_left {a b : α} : a ≤ b → a ≤ a
  defined_right {a b : α} : a ≤ b → b ≤ b
  le_trans {a b c : α} : a ≤ b → b ≤ c → a ≤ c
  le_total {a b : α} : a ≤ a → b ≤ b → a ≤ b ∨ b ≤ a
  lt_iff {a b : α} : a < b ↔ a ≤ b ∧ ¬ b ≤ a
  zero_le_one : (0.0 : α) ≤ 1.0
  neg_one_le_one : (-1.0 : α) ≤ 1.0

namespace Scalar

variable {α : Type} [Scalar α] {a b c x y lo hi : α}

theorem clamp_of_le (h : lo ≤ hi) : clamp x lo hi = .ok (confine x lo hi) := if_pos h

theorem larger_eq_or (a b : α) : larger a b = a ∨ larger a b = b := by
  unfold larger
  split_ifs <;> simp

theorem smaller_eq_or (a b : α) : smaller a b = a ∨ smaller a b = b := by
  unfold smaller
  split_ifs <;> simp

theorem clamp_of_not_le (h : ¬ lo ≤ hi) : clamp x lo hi = .error .outOfRange := if_neg h

theorem clamp_eq_ok {y : α} : clamp x lo hi = .ok y ↔ lo ≤ hi ∧ confine x lo hi = y := by
  by_cases h : lo ≤ hi
  · rw [clamp_of_le h]
    simp [h]
  · rw [clamp_of_not_le h]
    simp [h]

variable [LawfulOrder α]

open LawfulOrder

theorem le_of_not_lt (ha : a ≤ a) (hb : b ≤ b) (h : ¬ a < b) : b ≤ a := by
  rcases le_total ha hb with hab | hba
  · exact Decidable.byContradiction fun hn => h (lt_iff.mpr ⟨hab, hn⟩)
  · exact hba

theorem not_lt_of_le (h : b ≤ a) : ¬ a < b := fun hlt => (lt_iff.mp hlt).2 h

theorem not_le_iff (ha : a ≤ a) (hb : b ≤ b) : ¬ a ≤ b ↔ b < a := by
  constructor
  · intro h
    exact Decidable.byContradiction fun hn => h (le_of_not_lt hb ha hn)
  · intro h hab
    exact not_lt_of_le hab h

theorem le_of_lt (h : a < b) : a ≤ b := (lt_iff.mp h).1

theorem lt_of_lt_of_le (h : a < b) (h' : b ≤ c) : a < c :=
  lt_iff.mpr ⟨le_trans (le_of_lt h) h', fun hca => not_lt_of_le (le_trans h' hca) h⟩

theorem lt_of_le_of_lt (h : a ≤ b) (h' : b < c) : a < c :=
  lt_iff.mpr ⟨le_trans h (le_of_lt h'), fun hca => not_lt_of_le (le_trans hca h) h'⟩

theorem not_lt_of_isUndefined (h : IsUndefined a) : ¬ a < b :=
  fun hlt => h (defined_left (le_of_lt hlt))

theorem not_gt_of_isUndefined (h : IsUndefined a) : ¬ b < a :=
  fun hlt => h (defined_right (le_of_lt hlt))

/-! ## Clamping -/

theorem confine_mem (hx : x ≤ x) (h : lo ≤ hi) : lo ≤ confine x lo hi ∧ confine x lo hi ≤ hi := by
  unfold confine
  split_ifs with h₁ h₂
  · exact ⟨defined_left h, h⟩
  · exact ⟨h, defined_right h⟩
  · exact ⟨le_of_not_lt hx (defined_left h) h₁, le_of_not_lt (defined_right h) hx h₂⟩

theorem confine_eq_self (h₁ : lo ≤ x) (h₂ : x ≤ hi) : confine x lo hi = x := by
  rw [confine, if_neg (not_lt_of_le h₁), if_neg (not_lt_of_le h₂)]

theorem confine_of_isUndefined (h : IsUndefined x) : confine x lo hi = x := by
  rw [confine, if_neg (not_lt_of_isUndefined h), if_neg (not_gt_of_isUndefined h)]

theorem defined_of_confine (h : confine x lo hi ≤ confine x lo hi) : x ≤ x := by
  refine Decidable.byContradiction fun hx => ?_
  rw [confine_of_isUndefined hx] at h
  exact hx h

theorem confine_confine (h : lo ≤ hi) : confine (confine x lo hi) lo hi = confine x lo hi := by
  by_cases hx : x ≤ x
  · exact confine_eq_self (confine_mem hx h).1 (confine_mem hx h).2
  · rw [confine_of_isUndefined hx, confine_of_isUndefined hx]

theorem confineUnit_mem (hx : x ≤ x) : (0.0 : α) ≤ confineUnit x ∧ confineUnit x ≤ 1.0 :=
  confine_mem hx zero_le_one

theorem le_confine (hxy : x ≤ y) (hx : x ≤ hi) : x ≤ confine y lo hi := by
  unfold confine
  split_ifs with h₁ h₂
  · exact le_trans hxy (le_of_lt h₁)
  · exact hx
  · exact hxy

theorem confine_le (hxy : x ≤ y) (hlo : lo ≤ y) : confine x lo hi ≤ y := by
  unfold confine
  split_ifs with h₁ h₂
  · exact hlo
  · exact le_trans (le_of_lt h₂) hxy
  · exact hxy

theorem confine_le_confine {lo' : α} (hlo : lo ≤ lo') (h : lo' ≤ hi) (hxy : x ≤ y) :
    confine x lo hi ≤ confine y lo' hi := by
  obtain ⟨hlow, -⟩ := confine_mem (defined_right hxy) h
  by_cases h₁ : x < lo
  · rw [confine, if_pos h₁]
    exact le_trans hlo hlow
  · by_cases h₂ : hi < x
    · rw [confine, if_neg h₁, if_pos h₂]
      exact le_confine (le_trans (le_of_lt h₂) hxy) (defined_right h)
    · rw [confine, if_neg h₁, if_neg h₂]
      exact le_confine hxy (le_of_not_lt (defined_right h) (defined_left hxy) h₂)

theorem confine_mono (h : lo ≤ hi) (hxy : x ≤ y) : confine x lo hi ≤ confine y lo hi :=
  confine_le_confine (defined_left h) h hxy

/-! ## The larger and the smaller of two values -/

theorem larger_spec (ha : a ≤ a) (hb : b ≤ b) : a ≤ larger a b ∧ b ≤ larger a b := by
  have hdefined : ¬ IsUndefined a := not_not_intro ha
  rw [larger, if_neg hdefined]
  split_ifs with h
  · exact ⟨le_of_lt h, hb⟩
  · exact ⟨ha, le_of_not_lt ha hb h⟩

theorem smaller_spec (ha : a ≤ a) (hb : b ≤ b) : smaller a b ≤ a ∧ smaller a b ≤ b := by
  have hdefined : ¬ IsUndefined a := not_not_intro ha
  rw [smaller, if_neg hdefined]
  split_ifs with h
  · exact ⟨le_of_lt h, hb⟩
  · exact ⟨ha, le_of_not_lt hb ha h⟩

omit [LawfulOrder α] in
theorem larger_le (ha : a ≤ c) (hb : b ≤ c) : larger a b ≤ c := by
  rcases larger_eq_or a b with h | h <;> rw [h]
  · exact ha
  · exact hb

theorem larger_mono {a' b' : α} (ha : a ≤ a') (hb : b ≤ b') : larger a b ≤ larger a' b' := by
  obtain ⟨ha', hb'⟩ := larger_spec (defined_right ha) (defined_right hb)
  exact larger_le (le_trans ha ha') (le_trans hb hb')

end Scalar

end WorkloadSynth
