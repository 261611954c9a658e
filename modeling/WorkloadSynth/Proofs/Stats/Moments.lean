import WorkloadSynth.Proofs.Workload.Exact
import Mathlib.Algebra.BigOperators.Ring.List
import Mathlib.Algebra.Order.BigOperators.Group.List
import Mathlib.Tactic.FieldSimp
import Mathlib.Tactic.LinearCombination
import Mathlib.Tactic.Ring
import WorkloadSynth.Proofs.Stats.Extremes

/-!
# Running moments in exact arithmetic

A running mean moves with every value, and so does the point that squared distances are measured from.
What stays is an equation about any fixed point `c`: the squared distances from `c` add up to the sum kept
and the count times the squared distance of the mean from `c` (`Running.sum_squares_about`).  At the mean it
says that the sum kept is that of the squared distances from the mean, as in the statistics of a series at
hand (`running_agrees_with_batch`).
-/

set_option autoImplicit false

namespace WorkloadSynth.Stats

variable {K : Type} [Field K] [LinearOrder K] [IsStrictOrderedRing K] [ElementaryFunctions K]

/-! ## Series at hand as a whole -/

theorem sum_eq (values : List K) : sum values = values.sum := by
  have hzero : (-0.0 : K) = 0 := by norm_num
  rw [sum, hzero, List.sum_eq_foldl]

theorem mean_eq (values : List K) : mean values = values.sum / values.length := by
  cases values with
  | nil => simp [mean]; norm_num
  | cons v rest =>
      rw [mean, if_neg (by simp), sum_eq]
      rfl

/-! ## Running statistics -/

namespace Running

theorem push_mean (r : Running K) (v : K) :
    v = r.mean + (r.count + 1) * ((r.push v).mean - r.mean) := by
  have hmean : (r.push v).mean = r.mean + (v - r.mean) / ((r.count + 1 : ℕ) : K) := rfl
  have hcount : ((r.count + 1 : ℕ) : K) ≠ 0 := Nat.cast_ne_zero.mpr r.count.succ_ne_zero
  rw [hmean, add_sub_cancel_left, ← Nat.cast_succ, mul_div_cancel₀ _ hcount, add_sub_cancel]

theorem sum_squares_about (values : List K) (c : K) :
    (values.map fun v => (v - c) * (v - c)).sum = (ofList values).squares +
      values.length * (((ofList values).mean - c) * ((ofList values).mean - c)) := by
  induction values using List.reverseRecOn with
  | nil =>
      have hempty : (ofList ([] : List K)).squares = 0.0 := rfl
      rw [hempty]
      norm_num
  | append_singleton values v ih =>
      have hmoved := push_mean (ofList values) v
      have hsquares : ((ofList values).push v).squares =
        (ofList values).squares + (v - (ofList values).mean) * (v - ((ofList values).push v).mean) := rfl
      rw [count_ofList] at hmoved
      rw [ofList_concat, hsquares, List.map_append, List.sum_append, ih, List.length_append]
      generalize ((ofList values).push v).mean = moved at *
      subst hmoved
      push_cast [List.map_cons, List.map_nil, List.sum_singleton, List.length_singleton]
      ring

theorem sum_eq_length_mul_mean (values : List K) :
    values.sum = values.length * (ofList values).mean := by
  induction values using List.reverseRecOn with
  | nil => simp
  | append_singleton values v ih =>
      have hmoved := push_mean (ofList values) v
      rw [count_ofList] at hmoved
      rw [ofList_concat, List.sum_append, ih, List.sum_singleton, List.length_append]
      push_cast [List.length_singleton]
      linear_combination hmoved

theorem mean_ofList (values : List K) : (ofList values).mean = Stats.mean values := by
  cases values with
  | nil => rfl
  | cons v rest =>
      have hlength : ((v :: rest).length : K) ≠ 0 := Nat.cast_ne_zero.mpr (Nat.succ_ne_zero _)
      rw [mean_eq, sum_eq_length_mul_mean, mul_div_cancel_left₀ _ hlength]

/-- At the mean nothing is left of the distance between the mean and the point. -/
theorem squares_ofList (values : List K) : (ofList values).squares =
    (values.map fun v => (v - Stats.mean values) * (v - Stats.mean values)).sum := by
  have habout := sum_squares_about values (Stats.mean values)
  rw [mean_ofList, sub_self, mul_zero, mul_zero, add_zero] at habout
  exact habout.symm

theorem squares_nonneg (values : List K) : 0 ≤ (ofList values).squares := by
  rw [squares_ofList]
  refine List.sum_nonneg fun w hw => ?_
  obtain ⟨v, -, rfl⟩ := List.mem_map.mp hw
  exact mul_self_nonneg _

section Extremes

variable {values : List K} (hsome : values ≠ [])

include hsome

theorem exists_least : ∃ m ∈ values, (ofList values).least = some m ∧ ∀ v ∈ values, m ≤ v := by
  have hextreme := extreme_least values
  obtain ⟨w, hw⟩ := List.exists_mem_of_ne_nil values hsome
  cases hleast : (ofList values).least with
  | none => rw [hleast] at hextreme; exact absurd (le_refl w) (hextreme w hw)
  | some m => rw [hleast] at hextreme; exact ⟨m, hextreme.1, rfl, fun v hv => hextreme.2.2 v hv (le_refl v)⟩

theorem greatest_ofList : (ofList values).greatest = some (maximum values) := by
  have hmaximum : Extreme (fun a b => b ≤ a) values (some (maximum values)) :=
    ⟨maximum_mem hsome, le_refl _, fun v hv _ => le_maximum (fun w _ => le_refl w) v hv⟩
  exact (extreme_greatest values).eq_of_antisymm (fun _ _ hge hle => le_antisymm hle hge) hmaximum

theorem mean_mem {low : K} (hlow : ∀ v ∈ values, low ≤ v) :
    low ≤ Stats.mean values ∧ Stats.mean values ≤ maximum values := by
  have hlength : (0 : K) < values.length := Nat.cast_pos.mpr (List.length_pos_iff.mpr hsome)
  rw [mean_eq, le_div_iff₀' hlength, div_le_iff₀' hlength, ← nsmul_eq_mul, ← nsmul_eq_mul]
  exact ⟨List.card_nsmul_le_sum values low hlow,
    List.sum_le_card_nsmul values _ (le_maximum fun v _ => le_refl v)⟩

omit [IsStrictOrderedRing K] in
theorem summary_ofList : (ofList values).summary = {
    mean := (ofList values).mean
    deviation := Scalar.sqrt ((ofList values).squares / values.length)
    minimum := (ofList values).least.getD (1.0 / 0.0)
    maximum := (ofList values).greatest.getD (-1.0 / 0.0) } := by
  have hcount : (ofList values).count ≠ 0 := by
    rw [count_ofList]
    exact (List.length_pos_iff.mpr hsome).ne'
  rw [summary, if_neg hcount, count_ofList]
  rfl

theorem deviation_ofList (hroot : ∀ x : K, 0 ≤ x → Scalar.sqrt x * Scalar.sqrt x = x) :
    Scalar.sqrt ((ofList values).squares / values.length) = deviation values := by
  unfold deviation
  split_ifs with hfew
  · obtain ⟨v, rfl⟩ : ∃ v, values = [v] := by
      have := List.length_pos_iff.mpr hsome
      exact List.length_eq_one_iff.mp (by omega)
    have hsquares : (ofList [v]).squares = 0 := by
      rw [squares_ofList, mean_eq]
      simp
    have hzero := hroot 0 (le_refl 0)
    rw [mul_self_eq_zero] at hzero
    rw [hsquares, zero_div, hzero]
    norm_num
  · rw [squares_ofList, ← sum_eq]
    rfl

end Extremes

theorem ofList_perm {values order : List K} (h : order.Perm values) : ofList order = ofList values := by
  have hmean : (ofList order).mean = (ofList values).mean := by
    rw [mean_ofList, mean_ofList, mean_eq, mean_eq, h.sum_eq, h.length_eq]
  have hsquares : (ofList order).squares = (ofList values).squares := by
    rw [squares_ofList, squares_ofList, ← mean_ofList, hmean, mean_ofList, (h.map _).sum_eq]
  have hleast : (ofList order).least = (ofList values).least :=
    (extreme_least order).eq_of_antisymm (fun _ _ => le_antisymm) ((extreme_least values).perm h)
  have hgreatest : (ofList order).greatest = (ofList values).greatest :=
    (extreme_greatest order).eq_of_antisymm (fun _ _ hge hle => le_antisymm hle hge)
      ((extreme_greatest values).perm h)
  have hcount : (ofList order).count = (ofList values).count := by
    rw [count_ofList, count_ofList, h.length_eq]
  calc ofList order = ⟨(ofList order).count, (ofList order).mean, (ofList order).squares,
        (ofList order).least, (ofList order).greatest⟩ := rfl
    _ = ofList values := by rw [hcount, hmean, hsquares, hleast, hgreatest]

end Running

/-- However some values are pushed, their count, mean, squared distances from the mean and extremes are kept,
and the column that is read off has the mean, the deviation and the maximum of the series, with the mean
between the extremes.  Of the root it is only asked that it is one. -/
theorem running_agrees_with_batch (hroot : ∀ x : K, 0 ≤ x → Scalar.sqrt x * Scalar.sqrt x = x)
    {values order : List K} (hsome : values ≠ []) (h : order.Perm values) :
    let r := Running.ofList order
    r.count = values.length ∧ r.mean = values.sum / values.length ∧
      r.squares = (values.map fun v => (v - r.mean) * (v - r.mean)).sum ∧ 0 ≤ r.squares ∧
      (∃ m ∈ values, r.least = some m ∧ r.summary.minimum = m ∧ ∀ v ∈ values, m ≤ v) ∧
      (∃ m ∈ values, r.greatest = some m ∧ r.summary.maximum = m ∧ ∀ v ∈ values, v ≤ m) ∧
      (r.summary.mean = mean values ∧ r.summary.maximum = maximum values ∧
        r.summary.deviation = deviation values ∧
        r.squares / values.length = deviation values * deviation values) ∧
      r.summary.minimum ≤ r.summary.mean ∧ r.summary.mean ≤ r.summary.maximum := by
  intro r
  have hr : r = Running.ofList values := Running.ofList_perm h
  have hmean : r.mean = mean values := hr ▸ Running.mean_ofList values
  have hdeviation := Running.deviation_ofList hsome hroot
  obtain ⟨low, hlow, hleast, hbelow⟩ := Running.exists_least hsome
  have hgreatest := Running.greatest_ofList hsome
  have hnonneg := Running.squares_nonneg values
  have hbetween := Running.mean_mem hsome hbelow
  have hsummary : r.summary = ⟨mean values, deviation values, low, maximum values⟩ := by
    rw [hr, Running.summary_ofList hsome, Running.mean_ofList, hdeviation, hleast, hgreatest]
    rfl
  rw [hsummary]
  rw [← hr] at hleast hgreatest hnonneg hdeviation
  refine ⟨?_, ?_, ?_, hnonneg, ⟨low, hlow, hleast, rfl, hbelow⟩,
    ⟨maximum values, maximum_mem hsome, hgreatest, rfl, le_maximum fun v _ => le_refl v⟩,
    ⟨rfl, rfl, rfl, ?_⟩, hbetween⟩
  · rw [hr, Running.count_ofList]
  · rw [hmean, mean_eq]
  · rw [hmean, hr, Running.squares_ofList]
  · rw [← hdeviation, hroot _ (div_nonneg hnonneg (Nat.cast_nonneg _))]

theorem running_agrees_with_batch_of_eight :
    letI : ElementaryFunctions ℝ := realFunctions
    let values : List ℝ := [2, 4, 4, 4, 5, 5, 7, 9]
    let r := Running.ofList values.reverse
    values ≠ [] ∧ values.reverse.Perm values ∧ r.count = 8 ∧ r.mean = 5 ∧ r.squares = 32 ∧
      r.summary.deviation = deviation values ∧ deviation values * deviation values = 4 := by
  let _ : ElementaryFunctions ℝ := realFunctions
  intro values r
  have hsome : values ≠ [] := List.cons_ne_nil _ _
  have hperm := values.reverse_perm
  obtain ⟨hcount, hmean, hsquares, -, -, -, ⟨-, -, hdeviation, hvariance⟩, -⟩ :=
    running_agrees_with_batch (fun _ => Real.mul_self_sqrt) hsome hperm
  have hmean : r.mean = 5 := hmean.trans (by norm_num [values])
  have hsquares : r.squares = 32 := by
    rw [hsquares, hmean]
    norm_num [values]
  refine ⟨hsome, hperm, hcount, hmean, hsquares, hdeviation, ?_⟩
  rw [← hvariance, hsquares]
  norm_num [values]

end WorkloadSynth.Stats
