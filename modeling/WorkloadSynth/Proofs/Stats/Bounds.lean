import WorkloadSynth.Proofs.Binary64.Conversion
import WorkloadSynth.Stats.Batch

/-!
# Bounds of statistics

A sum of doubles can only grow so far: once it is `2 ^ 53` times as large as each further term, adding
one rounds back to the sum.  So the mean of any number of shares is finite, although the count itself
may overflow, and the stability of a series of shares is finite and at most one.
-/

set_option autoImplicit false

namespace WorkloadSynth.Stats

open Binary64 (Within)

variable {values : List Float}

/-! ## Sums and means -/

theorem within_foldl {term total start : Float} (h : ∀ v ∈ values, Within 0.0 term v)
    (hstart : Within 0.0 total start) (hfull : total + term ≤ total) :
    Within 0.0 total (values.foldl (· + ·) start) := by
  induction values generalizing start with
  | nil => exact hstart
  | cons v rest ih =>
      have hnext : Within 0.0 total (start + v) :=
        hstart.add (h v List.mem_cons_self) ⟨by decide, hstart.finite_upper, by decide, hfull⟩
      exact ih (fun w hw => h w (List.mem_cons_of_mem v hw)) hnext

theorem within_mean (h : ∀ v ∈ values, Within 0.0 1.0 v) : Within 0.0 9007199254740992.0 (mean values) := by
  unfold mean
  split
  · exact by decide
  · next hsome =>
      have hlength : 0 < values.length := by
        simpa [List.length_pos_iff] using hsome
      exact (within_foldl h (by decide) (by decide)).shrink (Binary64.one_le_ofNat hlength)

/-- Deviations are finite because the squares they are made from are. -/
theorem within_deviation (h : ∀ v ∈ values, Within 0.0 1.0 v) : Within 0.0 1e25 (deviation values) := by
  unfold deviation
  split
  · exact by decide
  · next hmany =>
      have hsquares : ∀ w ∈ values.map fun v => (v - mean values) * (v - mean values),
          Within 0.0 8.2e31 w := by
        intro w hw
        obtain ⟨v, hv, rfl⟩ := List.mem_map.mp hw
        have hdifference : Within (-9007199254740992.0) 9007199254740992.0 (v - mean values) :=
          (h v hv).sub (within_mean h) (by decide)
        exact hdifference.square (by decide +kernel)
      have hsum : Within 0.0 1e49 (sum (values.map fun v => (v - mean values) * (v - mean values))) :=
        within_foldl hsquares (by decide +kernel) (by decide +kernel)
      exact (hsum.shrink (Binary64.one_le_ofNat (by omega))).sqrt (by decide +kernel)

theorem within_stability (h : ∀ v ∈ values, Within 0.0 1.0 v) : Within (-1e27) 1.0 (stability values) := by
  have hlevel : Within 0.01 1e16 (mean values + 0.01) :=
    (within_mean h).add (Within.self (by decide)) (by decide)
  have hspread : Within 0.0 1e27 (deviation values / (mean values + 0.01)) :=
    (within_deviation h).quotient hlevel (by decide +kernel)
  exact (Within.self (by decide)).sub hspread (by decide +kernel)

/-! ## Greatest values -/

section Greatest

variable {α : Type} [Scalar α]

theorem foldl_larger_mem (v : α) (rest : List α) : rest.foldl Scalar.larger v ∈ v :: rest := by
  induction rest generalizing v with
  | nil => exact List.mem_singleton_self v
  | cons w rest ih =>
      have hnext := ih (Scalar.larger v w)
      rcases List.mem_cons.mp hnext with hhead | hrest
      · rw [List.foldl_cons, hhead]
        rcases Scalar.larger_eq_or v w with h | h <;> rw [h] <;> simp
      · exact List.mem_cons_of_mem v (List.mem_cons_of_mem w hrest)

theorem maximum_mem {series : List α} (h : series ≠ []) : maximum series ∈ series := by
  cases series with
  | nil => exact absurd rfl h
  | cons v rest => exact foldl_larger_mem v rest

end Greatest

theorem within_maximum (h : ∀ v ∈ values, Within 0.0 1.0 v) : Within 0.0 1.0 (maximum values) := by
  by_cases hnone : values = []
  · rw [hnone]
    exact by decide
  · exact h _ (maximum_mem hnone)

end WorkloadSynth.Stats
