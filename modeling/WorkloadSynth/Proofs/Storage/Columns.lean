import WorkloadSynth.Proofs.Storage.NumericArray

/-!
# Arrays as rows

An array whose values are rows put end to end has the rows along its last axis, whatever the axes before it
are.  Going through those axes in row-major order meets the rows one after the other, so a column of the
array holds an entry of each row.
-/

set_option autoImplicit false

namespace WorkloadSynth.NumericArray

def indices : (shape : List ℕ) → List (List ℕ)
  | [] => [[]]
  | n :: shape => (List.range n).flatMap fun i => (indices shape).map (i :: ·)

def column (a : NumericArray) (f : ℕ) : List UInt32 :=
  (indices a.shape.dropLast).filterMap fun index => a.value? (index ++ [f])

/-- Rows of `width` values each, along the axes of a shape. -/
def ofRows (shape : List ℕ) (width : ℕ) (rows : List (List UInt32)) : NumericArray :=
  ⟨shape ++ [width], rows.flatten⟩

theorem size_cons (n : ℕ) (shape : List ℕ) : size (n :: shape) = n * size shape := by
  simp only [size_eq_prod, List.prod_cons]

theorem size_append_singleton (shape : List ℕ) (k : ℕ) : size (shape ++ [k]) = size shape * k := by
  simp only [size_eq_prod, List.prod_append, List.prod_cons, List.prod_nil, mul_one]

/-! ## Offsets -/

theorem forall₂_of_mem_indices {shape index : List ℕ} (h : index ∈ indices shape) :
    List.Forall₂ (· < ·) index shape := by
  induction shape generalizing index with
  | nil =>
      obtain rfl := List.mem_singleton.mp h
      exact .nil
  | cons n shape ih =>
      obtain ⟨i, hi, h⟩ := List.mem_flatMap.mp h
      obtain ⟨rest, hrest, rfl⟩ := List.mem_map.mp h
      exact .cons (List.mem_range.mp hi) (ih hrest)

theorem offset_append_singleton {shape index : List ℕ} (h : List.Forall₂ (· < ·) index shape) (k f : ℕ) :
    offset (shape ++ [k]) (index ++ [f]) = offset shape index * k + f := by
  induction h with
  | nil =>
      change f * size [] + offset [] [] = 0 * k + f
      simp [size, offset]
  | @cons i n index shape _ _ ih =>
      rw [List.cons_append, List.cons_append, offset, offset, ih, size_append_singleton]
      ring

theorem range_flatMap_range (n m : ℕ) :
    ((List.range n).flatMap fun i => (List.range m).map (i * m + ·)) = List.range (n * m) := by
  induction n with
  | zero => simp
  | succ n ih => rw [List.range_succ, List.flatMap_append, ih, List.flatMap_singleton, Nat.succ_mul, List.range_add]

theorem map_offset_indices (shape : List ℕ) :
    (indices shape).map (offset shape) = List.range (size shape) := by
  induction shape with
  | nil => rfl
  | cons n shape ih =>
      have hrow (i : ℕ) : ((indices shape).map (i :: ·)).map (offset (n :: shape)) =
          (List.range (size shape)).map (i * size shape + ·) := by
        rw [← ih, List.map_map, List.map_map]
        rfl
      rw [indices, List.map_flatMap, size_cons, ← range_flatMap_range]
      simp only [hrow]

/-! ## Rows -/

theorem range_filterMap_getElem? {β γ : Type} (xs : List β) (g : β → Option γ) :
    ((List.range xs.length).filterMap fun i => xs[i]?.bind g) = xs.filterMap g := by
  induction xs with
  | nil => rfl
  | cons x xs ih =>
      rw [List.length_cons, List.range_succ_eq_map, List.filterMap_cons, List.filterMap_cons,
        List.filterMap_map]
      simp only [Function.comp_def, List.getElem?_cons_zero, List.getElem?_cons_succ, Option.bind_some, ih]

section

variable {shape : List ℕ} {width : ℕ} {rows : List (List UInt32)} (hrows : ∀ row ∈ rows, row.length = width)

include hrows

theorem ofRows_value? {index : List ℕ} (hindex : List.Forall₂ (· < ·) index shape) {f : ℕ} (hf : f < width) :
    (ofRows shape width rows).value? (index ++ [f]) = rows[offset shape index]?.bind (·[f]?) := by
  have hplace : List.Forall₂ (· < ·) (index ++ [f]) (shape ++ [width]) :=
    List.rel_append hindex (.cons hf .nil)
  have hflatten : rows.flatten = rows.flatMap id := List.flatMap_id.symm
  rw [value?, ofRows, if_pos hplace, offset_append_singleton hindex, hflatten]
  exact getElem?_flatMap_of_length hrows hf

theorem ofRows_column (hcount : rows.length = size shape) {f : ℕ} (hf : f < width) :
    (ofRows shape width rows).column f = rows.filterMap (·[f]?) := by
  have hentry : ∀ index ∈ indices shape, (ofRows shape width rows).value? (index ++ [f]) =
      rows[offset shape index]?.bind (·[f]?) :=
    fun index h => ofRows_value? hrows (forall₂_of_mem_indices h) hf
  have hshape : (ofRows shape width rows).shape.dropLast = shape := List.dropLast_concat
  rw [column, hshape, List.filterMap_congr hentry, ← range_filterMap_getElem? rows, hcount,
    ← map_offset_indices, List.filterMap_map]
  rfl

end

end WorkloadSynth.NumericArray
