import WorkloadSynth.Storage.NumericArray
import Mathlib.Algebra.BigOperators.Group.List.Basic
import Mathlib.Tactic.Ring
import Mathlib.Tactic.SplitIfs

/-!
# Entries of arrays

An array is asked for an entry by one index for each axis; the values are in row-major order.  Stacking
whole traces checks the number of values only, and that is the number of steps of all traces together.  So
the rows are cut from the traces put end to end, and they are the traces themselves if and only if each
trace has the length that was asked for.
-/

set_option autoImplicit false

namespace WorkloadSynth

/-! ## Lists of equal pieces -/

section Pieces

variable {β γ : Type} {xs : List β} {pieces : β → List γ} {n : ℕ}

theorem length_flatMap_of_length (h : ∀ x ∈ xs, (pieces x).length = n) :
    (xs.flatMap pieces).length = xs.length * n := by
  induction xs with
  | nil => simp
  | cons x xs ih =>
      rw [List.flatMap_cons, List.length_append, h x List.mem_cons_self,
        ih fun y hy => h y (List.mem_cons_of_mem x hy), List.length_cons]
      ring

theorem getElem?_flatMap_of_length (h : ∀ x ∈ xs, (pieces x).length = n) {i t : ℕ} (ht : t < n) :
    (xs.flatMap pieces)[i * n + t]? = xs[i]?.bind fun x => (pieces x)[t]? := by
  induction xs generalizing i with
  | nil => simp
  | cons x xs ih =>
      have hx := h x List.mem_cons_self
      rw [List.flatMap_cons]
      cases i with
      | zero =>
          rw [List.getElem?_append_left (by omega)]
          simp
      | succ i =>
          have hbeyond : n ≤ (i + 1) * n + t := by
            rw [Nat.succ_mul]
            omega
          have hindex : (i + 1) * n + t - n = i * n + t := by
            rw [Nat.succ_mul]
            omega
          rw [List.getElem?_append_right (hx.symm ▸ hbeyond), hx, hindex,
            ih fun y hy => h y (List.mem_cons_of_mem x hy), List.getElem?_cons_succ]

theorem mul_length_le_flatMap (hle : ∀ x ∈ xs, n ≤ (pieces x).length) :
    xs.length * n ≤ (xs.flatMap pieces).length := by
  induction xs with
  | nil => simp
  | cons x xs ih =>
      rw [List.flatMap_cons, List.length_append, List.length_cons, Nat.succ_mul]
      have hx := hle x List.mem_cons_self
      have hrest := ih fun y hy => hle y (List.mem_cons_of_mem x hy)
      omega

/-- Pieces of at least `n` entries that have `n` on average all have `n`. -/
theorem length_eq_of_flatMap_le (hle : ∀ x ∈ xs, n ≤ (pieces x).length)
    (htotal : (xs.flatMap pieces).length ≤ xs.length * n) : ∀ x ∈ xs, (pieces x).length = n := by
  induction xs with
  | nil => exact nofun
  | cons x xs ih =>
      rw [List.flatMap_cons, List.length_append, List.length_cons, Nat.succ_mul] at htotal
      have hx := hle x List.mem_cons_self
      have hrest : ∀ y ∈ xs, n ≤ (pieces y).length := fun y hy => hle y (List.mem_cons_of_mem x hy)
      have hleast := mul_length_le_flatMap hrest
      intro y hy
      rcases List.mem_cons.mp hy with rfl | hy
      · omega
      · exact ih hrest (by omega) y hy

end Pieces

namespace NumericArray

/-! ## Entries -/

def offset : (shape index : List ℕ) → ℕ
  | _ :: shape, i :: index => i * size shape + offset shape index
  | _, _ => 0

def value? (a : NumericArray) (index : List ℕ) : Option UInt32 :=
  if List.Forall₂ (· < ·) index a.shape then a.values[offset a.shape index]? else none

theorem size_eq_prod (shape : List ℕ) : size shape = shape.prod := List.prod_eq_foldl.symm

theorem ofValues_eq_ok {shape : List ℕ} {values : List UInt32} {a : NumericArray} :
    ofValues shape values = .ok a ↔
      extent shape < 2 ^ 63 ∧ values.length = size shape ∧ a = ⟨shape, values⟩ := by
  unfold ofValues
  constructor
  · intro h
    split_ifs at h with hextent hfew hmany
    exact ⟨by simpa using hextent, by omega, (Except.ok.inj h).symm⟩
  · rintro ⟨hextent, hlength, rfl⟩
    rw [if_neg (by simpa using hextent), if_neg (by omega), if_neg (by omega)]

theorem value?_of_lt {values : List UInt32} {n m k i t f : ℕ} (hi : i < n) (ht : t < m) (hf : f < k) :
    value? ⟨[n, m, k], values⟩ [i, t, f] = values[(i * m + t) * k + f]? := by
  have hplace : List.Forall₂ (· < ·) [i, t, f] [n, m, k] := by simp [hi, ht, hf]
  have hoffset : offset [n, m, k] [i, t, f] = (i * m + t) * k + f := by
    simp only [offset, size_eq_prod, List.prod_cons, List.prod_nil]
    ring
  rw [value?, if_pos hplace, hoffset]

end NumericArray

namespace Sample

open NumericArray (value? extent)

/-! ## Traces as rows -/

def reading? (steps : List (Usage Float)) (t f : ℕ) : Option UInt32 :=
  steps[t]?.bind fun u => (u.toList.map Binary64.singleBits)[f]?

theorem length_readings (u : Usage Float) :
    (u.toList.map Binary64.singleBits).length = Usage.columnNames.length := by
  rw [List.length_map, Usage.length_toList]

theorem isSome_reading? {steps : List (Usage Float)} {t f : ℕ} (hf : f < Usage.columnNames.length) :
    (reading? steps t f).isSome ↔ t < steps.length := by
  unfold reading?
  by_cases ht : t < steps.length
  · rw [List.getElem?_eq_getElem ht]
    have hreading : f < steps[t].toList.length := hf
    simp [hreading, ht]
  · simp [ht]

theorem getElem?_stepValues {steps : List (Usage Float)} {t f : ℕ} (hf : f < Usage.columnNames.length) :
    (stepValues steps)[t * Usage.columnNames.length + f]? = reading? steps t f :=
  getElem?_flatMap_of_length (fun u _ => length_readings u) hf

variable {samples : List (Sample Float)} {length : ℕ}

def timeline (samples : List (Sample Float)) : List (Usage Float) := samples.flatMap (·.trace.steps)

theorem traceArray_values (samples : List (Sample Float)) :
    (samples.flatMap fun s => stepValues s.trace.steps) = stepValues (timeline samples) :=
  List.flatMap_assoc.symm

def rows (samples : List (Sample Float)) (length : ℕ) : NumericArray :=
  ⟨[samples.length, length, Usage.columnNames.length], stepValues (timeline samples)⟩

theorem traceArray_eq_ok {a : NumericArray} : traceArray samples length = .ok a ↔
    extent [samples.length, length, Usage.columnNames.length] < 2 ^ 63 ∧
      (timeline samples).length = samples.length * length ∧ a = rows samples length := by
  have hvalues : (stepValues (timeline samples)).length =
      (timeline samples).length * Usage.columnNames.length :=
    length_flatMap_of_length fun u _ => length_readings u
  have hcolumns : 0 < Usage.columnNames.length := by decide
  have hsize : NumericArray.size [samples.length, length, Usage.columnNames.length] =
      samples.length * length * Usage.columnNames.length := by
    simp only [NumericArray.size_eq_prod, List.prod_cons, List.prod_nil]
    ring
  unfold traceArray
  rw [NumericArray.ofValues_eq_ok, traceArray_values, hvalues, hsize, Nat.mul_right_cancel_iff hcolumns]
  rfl

section Entries

variable {i t f : ℕ} (hi : i < samples.length) (ht : t < length) (hf : f < Usage.columnNames.length)

include hi ht hf

theorem rows_value? : (rows samples length).value? [i, t, f] =
    reading? (timeline samples) (i * length + t) f := by
  unfold rows
  rw [NumericArray.value?_of_lt hi ht hf, getElem?_stepValues hf]

theorem isSome_rows_value? (htotal : (timeline samples).length = samples.length * length) :
    ((rows samples length).value? [i, t, f]).isSome := by
  have hrow : (i + 1) * length ≤ samples.length * length := Nat.mul_le_mul_right length hi
  rw [Nat.succ_mul] at hrow
  rw [rows_value? hi ht hf, isSome_reading? hf, htotal]
  omega

end Entries

theorem reading?_timeline (h : ∀ s ∈ samples, s.trace.length = length) {i t f : ℕ} (ht : t < length) :
    reading? (timeline samples) (i * length + t) f = samples[i]?.bind fun s => reading? s.trace.steps t f := by
  have hstep : (samples.flatMap (·.trace.steps))[i * length + t]? =
      samples[i]?.bind fun s => s.trace.steps[t]? := getElem?_flatMap_of_length h ht
  unfold reading? timeline
  rw [hstep, Option.bind_assoc]

/-- Rows that are the traces of their samples leave no trace of another length. -/
theorem length_eq_of_rows (htotal : (timeline samples).length = samples.length * length)
    (hrows : ∀ i < samples.length, ∀ t < length, ∀ f < Usage.columnNames.length,
      (rows samples length).value? [i, t, f] = samples[i]?.bind fun s => reading? s.trace.steps t f) :
    ∀ s ∈ samples, s.trace.length = length := by
  have hf : 0 < Usage.columnNames.length := by decide
  have hlong : ∀ s ∈ samples, length ≤ s.trace.steps.length := by
    intro s hs
    obtain ⟨i, hi, rfl⟩ := List.mem_iff_getElem.mp hs
    by_contra hshort
    have ht : samples[i].trace.steps.length < length := by omega
    -- After the last step of its trace the row has an entry, and the trace has no reading.
    have hsome := isSome_rows_value? hi ht hf htotal
    rw [hrows i hi _ ht 0 hf, List.getElem?_eq_getElem hi, Option.bind_some, isSome_reading? hf] at hsome
    exact Nat.lt_irrefl _ hsome
  exact length_eq_of_flatMap_le hlong htotal.le

/-- Stacking gives an array if the axes that are not empty can be counted and the traces have as many steps
together as the rows.  Row after row is cut from the traces put end to end; each row is the trace of its own
sample if and only if every trace has the length of a row. -/
theorem traceArray_cuts_timeline (samples : List (Sample Float)) (length : ℕ) :
    ((∃ a, traceArray samples length = .ok a) ↔
      extent [samples.length, length, Usage.columnNames.length] < 2 ^ 63 ∧
        (timeline samples).length = samples.length * length) ∧
    ∀ a, traceArray samples length = .ok a →
      a.shape = [samples.length, length, Usage.columnNames.length] ∧
      (∀ i < samples.length, ∀ t < length, ∀ f < Usage.columnNames.length,
        a.value? [i, t, f] = reading? (timeline samples) (i * length + t) f ∧
          (a.value? [i, t, f]).isSome) ∧
      ((∀ i < samples.length, ∀ t < length, ∀ f < Usage.columnNames.length,
          a.value? [i, t, f] = samples[i]?.bind fun s => reading? s.trace.steps t f) ↔
        ∀ s ∈ samples, s.trace.length = length) := by
  refine ⟨?_, ?_⟩
  · constructor
    · rintro ⟨a, ha⟩
      obtain ⟨hextent, htotal, -⟩ := traceArray_eq_ok.mp ha
      exact ⟨hextent, htotal⟩
    · rintro ⟨hextent, htotal⟩
      exact ⟨_, traceArray_eq_ok.mpr ⟨hextent, htotal, rfl⟩⟩
  intro a ha
  obtain ⟨-, htotal, rfl⟩ := traceArray_eq_ok.mp ha
  refine ⟨rfl, ?_, ?_⟩
  · intro i hi t ht f hf
    exact ⟨rows_value? hi ht hf, isSome_rows_value? hi ht hf htotal⟩
  · constructor
    · exact length_eq_of_rows htotal
    · intro h i hi t ht f hf
      rw [rows_value? hi ht hf, reading?_timeline h ht]

theorem traceArray_of_pairs :
    let step : Float → Usage Float := fun x => ⟨⟨x, x, x⟩, ⟨x, x, x⟩, x, x, x, x, x, x⟩
    let sample : List (Usage Float) → Sample Float := fun steps =>
      ⟨0, ⟨.web, ⟨0.0, 0.0, 1.0⟩, none, steps⟩, ⟨⟨0.1, 0.2⟩, ⟨0.1, 0.2⟩, 0.9⟩⟩
    let first := sample [step 0.0, step 0.25]
    let second := sample [step 0.5, step 0.75]
    ∃ a, traceArray [first, second] 2 = .ok a ∧ a.shape = [2, 2, 12] ∧
      ∀ f < 12, a.value? [1, 0, f] = reading? second.trace.steps 0 f := by
  intro step sample first second
  obtain ⟨hstacks, hrows⟩ := traceArray_cuts_timeline [first, second] 2
  obtain ⟨a, ha⟩ := hstacks.mpr ⟨by decide, rfl⟩
  obtain ⟨hshape, -, hown⟩ := hrows a ha
  have hlength : ∀ s ∈ [first, second], s.trace.length = 2 := by
    intro s hs
    rcases List.mem_pair.mp hs with rfl | rfl <;> rfl
  exact ⟨a, ha, hshape, hown.mpr hlength 1 (by decide) 0 (by decide)⟩

/-- Traces of one step and of three fill two rows of two, and the first row takes its second step from the
second trace. -/
theorem traceArray_of_ragged :
    let step : Float → Usage Float := fun x => ⟨⟨x, x, x⟩, ⟨x, x, x⟩, x, x, x, x, x, x⟩
    let sample : List (Usage Float) → Sample Float := fun steps =>
      ⟨0, ⟨.web, ⟨0.0, 0.0, 1.0⟩, none, steps⟩, ⟨⟨0.1, 0.2⟩, ⟨0.1, 0.2⟩, 0.9⟩⟩
    let short := sample [step 0.0]
    let long := sample [step 0.25, step 0.5, step 0.75]
    short.trace.length ≠ 2 ∧ long.trace.length ≠ 2 ∧
      ∃ a, traceArray [short, long] 2 = .ok a ∧ a.value? [0, 1, 0] = reading? long.trace.steps 0 0 ∧
        a.value? [0, 1, 0] ≠ none ∧ reading? short.trace.steps 1 0 = none := by
  intro step sample short long
  refine ⟨by decide, by decide, _, traceArray_eq_ok.mpr ⟨by decide, rfl, rfl⟩, ?_, ?_, rfl⟩
  · rfl
  · exact nofun

end Sample

end WorkloadSynth
