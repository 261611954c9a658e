import WorkloadSynth.Decimal.Shortest
import WorkloadSynth.Proofs.Binary64.Meaning

/-!
# The shortest decimal names its double

The decimal that is written for a double lies among the reals that round to this double
(`shortest_covers`), and seventeen digits are enough to find it: the leading digit is found
(`leadingExponent_le`, `lt_leadingExponent`), so that the steps of seventeen digits are shorter than the
interval, and one of the two points around the value falls into it.
-/

set_option autoImplicit false

namespace WorkloadSynth.Decimal

noncomputable def Scaled.value (d : Scaled) : ℝ := d.digits * ((10 : ℕ) : ℝ) ^ d.exponent

namespace Interval

noncomputable def point (i : Interval) (n : ℕ) : ℝ := n * ((2 : ℕ) : ℝ) ^ i.unit

def Covers (i : Interval) (x : ℝ) : Prop :=
  if i.closed = true then i.point i.low ≤ x ∧ x ≤ i.point i.high
  else i.point i.low < x ∧ x < i.point i.high

variable {i : Interval} {x : ℝ}

theorem covers_of_lt (h : i.point i.low < x) (h' : x < i.point i.high) : i.Covers x := by
  unfold Covers
  split_ifs
  · exact ⟨h.le, h'.le⟩
  · exact ⟨h, h'⟩

theorem Covers.bounds (h : i.Covers x) : i.point i.low ≤ x ∧ x ≤ i.point i.high := by
  unfold Covers at h
  split_ifs at h
  · exact h
  · exact ⟨h.1.le, h.2.le⟩

theorem point_strictMono (i : Interval) : StrictMono i.point := by
  intro m n h
  exact mul_lt_mul_of_pos_right (by exact_mod_cast h) (by positivity)

theorem point_around_value (m : ℕ) (e : ℤ) :
    (around m e).point (around m e).value = m * (2 : ℝ) ^ e := by
  change ((4 * m : ℕ) : ℝ) * ((2 : ℕ) : ℝ) ^ (e - 2) = _
  rw [zpow_sub₀ (by norm_num)]
  push_cast
  ring

end Interval

/-! ## Grid points against the interval -/

theorem pow_excess {b : ℝ} (hb : b ≠ 0) (i : ℤ) : b ^ excess i = b ^ i * b ^ excess (-i) := by
  have hi : (excess i : ℤ) = i + excess (-i) := by
    unfold excess
    omega
  rw [← zpow_natCast, hi, zpow_add₀ hb, zpow_natCast]

namespace Ruler

variable (i : Interval) (grid : ℤ)

theorem weights : ∃ k : ℝ, 0 < k ∧ ((Ruler.at i grid).perUnit : ℝ) = ((2 : ℕ) : ℝ) ^ i.unit * k ∧
    ((Ruler.at i grid).perStep : ℝ) = ((10 : ℕ) : ℝ) ^ grid * k := by
  refine ⟨((2 : ℕ) : ℝ) ^ excess (-i.unit) * ((10 : ℕ) : ℝ) ^ excess (-grid), by positivity, ?_, ?_⟩
  · change ((2 ^ excess i.unit * 10 ^ excess (-grid) : ℕ) : ℝ) = _
    rw [Nat.cast_mul, Nat.cast_pow, Nat.cast_pow, pow_excess (by norm_num) i.unit]
    ring
  · change ((2 ^ excess (-i.unit) * 10 ^ excess grid : ℕ) : ℝ) = _
    rw [Nat.cast_mul, Nat.cast_pow, Nat.cast_pow, pow_excess (by norm_num) grid]
    ring

variable {i grid}

private theorem le_iff (a c : ℕ) : a * (Ruler.at i grid).perUnit ≤ c * (Ruler.at i grid).perStep ↔
    i.point a ≤ Scaled.value ⟨c, grid⟩ := by
  obtain ⟨k, hk, hunit, hstep⟩ := weights i grid
  rw [← Nat.cast_le (α := ℝ), Nat.cast_mul, Nat.cast_mul, hunit, hstep, ← mul_assoc, ← mul_assoc]
  exact mul_le_mul_iff_left₀ hk

private theorem ge_iff (a c : ℕ) : c * (Ruler.at i grid).perStep ≤ a * (Ruler.at i grid).perUnit ↔
    Scaled.value ⟨c, grid⟩ ≤ i.point a := by
  obtain ⟨k, hk, hunit, hstep⟩ := weights i grid
  rw [← Nat.cast_le (α := ℝ), Nat.cast_mul, Nat.cast_mul, hunit, hstep, ← mul_assoc, ← mul_assoc]
  exact mul_le_mul_iff_left₀ hk

theorem contains_iff (c : ℕ) : (Ruler.at i grid).contains c = true ↔ i.Covers (Scaled.value ⟨c, grid⟩) := by
  have hinterval : (Ruler.at i grid).interval = i := rfl
  unfold contains Interval.Covers
  rw [hinterval]
  split_ifs
  · simp only [Bool.and_eq_true, decide_eq_true_eq, le_iff, ge_iff]
  · simp only [Bool.and_eq_true, decide_eq_true_eq, ← not_le, le_iff, ge_iff]

theorem floor_le : Scaled.value ⟨(Ruler.at i grid).floor, grid⟩ ≤ i.point i.value :=
  (ge_iff _ _).mp (Nat.div_mul_le_self _ _)

theorem lt_floor_add_one : i.point i.value < Scaled.value ⟨(Ruler.at i grid).floor + 1, grid⟩ := by
  have hpos : 0 < (Ruler.at i grid).perStep := by
    obtain ⟨k, hk, -, hstep⟩ := weights i grid
    rw [← Nat.cast_pos (α := ℝ), hstep]
    positivity
  rw [← not_le, ← ge_iff, not_le]
  exact Nat.lt_mul_of_div_lt (Nat.lt_succ_self _) hpos

theorem nearest?_cases (r : Ruler) (tie : Tie) :
    (∃ c, r.nearest? tie = some c ∧ r.contains c = true ∧ c ≤ r.floor + 1) ∨
      r.nearest? tie = none ∧ r.contains r.floor = false ∧ r.contains (r.floor + 1) = false := by
  cases hbelow : r.contains r.floor <;> cases habove : r.contains (r.floor + 1)
  · exact .inr ⟨by simp only [nearest?, hbelow, habove], rfl, rfl⟩
  · exact .inl ⟨_, by simp only [nearest?, hbelow, habove], habove, le_rfl⟩
  · exact .inl ⟨_, by simp only [nearest?, hbelow, habove], hbelow, Nat.le_succ _⟩
  · have heither : r.nearest? tie = some r.floor ∨ r.nearest? tie = some (r.floor + 1) := by
      simp only [nearest?, hbelow, habove]
      cases tie <;> split_ifs <;> simp
    rcases heither with h | h
    · exact .inl ⟨_, h, hbelow, Nat.le_succ _⟩
    · exact .inl ⟨_, h, habove, le_rfl⟩

theorem nearest?_spec {tie : Tie} {c : ℕ} (h : (Ruler.at i grid).nearest? tie = some c) :
    i.Covers (Scaled.value ⟨c, grid⟩) ∧ c ≤ (Ruler.at i grid).floor + 1 := by
  rcases nearest?_cases (Ruler.at i grid) tie with ⟨d, hd, hcontains, hfloor⟩ | ⟨hnone, -⟩
  · obtain rfl : d = c := Option.some.inj (hd.symm.trans h)
    exact ⟨(contains_iff d).mp hcontains, hfloor⟩
  · rw [hnone] at h
    cases h

theorem exists_nearest? (tie : Tie) (hlow : i.low < i.value) (hhigh : i.value < i.high)
    (hstep : i.point i.low + ((10 : ℕ) : ℝ) ^ grid < i.point i.high) :
    ∃ c, (Ruler.at i grid).nearest? tie = some c := by
  have hnext : Scaled.value ⟨(Ruler.at i grid).floor + 1, grid⟩ =
      Scaled.value ⟨(Ruler.at i grid).floor, grid⟩ + ((10 : ℕ) : ℝ) ^ grid := by
    unfold Scaled.value
    push_cast
    ring
  rcases nearest?_cases (Ruler.at i grid) tie with ⟨c, h, -⟩ | ⟨-, hbelow, habove⟩
  · exact ⟨c, h⟩
  · rw [← Bool.not_eq_true, contains_iff] at hbelow habove
    rcases lt_or_ge (i.point i.low) (Scaled.value ⟨(Ruler.at i grid).floor, grid⟩) with h | h
    · exact absurd (Interval.covers_of_lt h (floor_le.trans_lt (i.point_strictMono hhigh))) hbelow
    · refine absurd (Interval.covers_of_lt ((i.point_strictMono hlow).trans lt_floor_add_one) ?_) habove
      rw [hnext]
      linarith

end Ruler

/-! ## Trailing zeros -/

theorem stripZeros_spec (limit : ℕ) (d : Scaled) : (stripZeros limit d).value = d.value ∧
    (stripZeros limit d).digits ≤ d.digits ∧ d.exponent ≤ (stripZeros limit d).exponent := by
  induction limit generalizing d with
  | zero => exact ⟨rfl, le_rfl, le_rfl⟩
  | succ limit ih =>
    rw [stripZeros]
    split_ifs with h
    · obtain ⟨hvalue, hdigits, hexponent⟩ := ih ⟨d.digits / 10, d.exponent + 1⟩
      refine ⟨?_, hdigits.trans (Nat.div_le_self _ _), (by dsimp only at hexponent; omega)⟩
      have hsplit : d.digits = d.digits / 10 * 10 := by omega
      rw [hvalue, Scaled.value, Scaled.value, hsplit, zpow_add_one₀ (by norm_num)]
      simp only [Nat.mul_div_cancel _ (by decide : 0 < 10), Nat.cast_mul]
      ring
    · exact ⟨rfl, le_rfl, le_rfl⟩

/-! ## The leading digit -/

def reaches (m : ℕ) (i j : ℤ) : Bool :=
  Nat.pow 10 (excess i) * Nat.pow 2 (excess (-j)) ≤ m * Nat.pow 2 (excess j) * Nat.pow 10 (excess (-i))

theorem reaches_iff (m : ℕ) (i j : ℤ) :
    reaches m i j = true ↔ ((10 : ℕ) : ℝ) ^ i ≤ m * ((2 : ℕ) : ℝ) ^ j := by
  have hk : 0 < ((2 : ℕ) : ℝ) ^ excess (-j) * ((10 : ℕ) : ℝ) ^ excess (-i) := by positivity
  rw [reaches, decide_eq_true_eq, Nat.pow_eq, Nat.pow_eq, Nat.pow_eq, Nat.pow_eq, ← Nat.cast_le (α := ℝ)]
  simp only [Nat.cast_mul, Nat.cast_pow]
  rw [pow_excess (by norm_num) i, pow_excess (by norm_num) j, mul_right_comm, mul_assoc, ← mul_assoc (m : ℝ),
    mul_assoc _ _ (_ ^ excess (-i))]
  exact mul_le_mul_iff_left₀ hk

/-- The estimate is right or too small by one: every power of two of the range of doubles lies between its
power of ten and the second one after. -/
private theorem estimate_powers : (List.range 2098).all (fun k =>
    let i : ℤ := k - 1074
    reaches 1 (i * 30103 / 100000) i && !reaches 1 (i * 30103 / 100000 + 2) (i + 1)) = true := by
  decide +kernel

section Leading

variable {m : ℕ} {e : ℤ} (hm : 0 < m) (hlow : -1074 ≤ (m.log2 : ℤ) + e) (hhigh : (m.log2 : ℤ) + e < 1024)

include hm hlow hhigh

private theorem estimate_bounds : ((10 : ℕ) : ℝ) ^ (((m.log2 : ℤ) + e) * 30103 / 100000) ≤ m * ((2 : ℕ) : ℝ) ^ e ∧
    m * ((2 : ℕ) : ℝ) ^ e < ((10 : ℕ) : ℝ) ^ (((m.log2 : ℤ) + e) * 30103 / 100000 + 2) := by
  have hmem : ((m.log2 : ℤ) + e + 1074).toNat ∈ List.range 2098 := List.mem_range.mpr (by omega)
  have hcheck := List.all_eq_true.mp estimate_powers _ hmem
  dsimp only at hcheck
  rw [show (((m.log2 : ℤ) + e + 1074).toNat : ℤ) - 1074 = m.log2 + e by omega, Bool.and_eq_true,
    Bool.not_eq_true', reaches_iff, ← Bool.not_eq_true, reaches_iff, not_le] at hcheck
  have hleast : ((2 : ℕ) : ℝ) ^ m.log2 ≤ m := by exact_mod_cast Nat.log2_self_le hm.ne'
  have hmost : (m : ℝ) < ((2 : ℕ) : ℝ) ^ (m.log2 + 1) := by exact_mod_cast Nat.lt_log2_self
  have hunit : 0 < ((2 : ℕ) : ℝ) ^ e := by positivity
  obtain ⟨hbelow, habove⟩ := hcheck
  rw [zpow_add₀ (by norm_num), zpow_natCast, Nat.cast_one, one_mul] at hbelow
  rw [add_assoc, add_comm e 1, ← add_assoc, zpow_add₀ (by norm_num), ← Nat.cast_add_one, zpow_natCast,
    Nat.cast_one, one_mul] at habove
  exact ⟨hbelow.trans (mul_le_mul_of_nonneg_right hleast hunit.le),
    (mul_lt_mul_of_pos_right hmost hunit).trans habove⟩

theorem leadingExponent_spec : ((10 : ℕ) : ℝ) ^ leadingExponent m e ≤ m * ((2 : ℕ) : ℝ) ^ e ∧
    m * ((2 : ℕ) : ℝ) ^ e < ((10 : ℕ) : ℝ) ^ (leadingExponent m e + 1) := by
  obtain ⟨hbelow, habove⟩ := estimate_bounds hm hlow hhigh
  have hlead : leadingExponent m e = if reaches m (((m.log2 : ℤ) + e) * 30103 / 100000 + 1) e = true then
      ((m.log2 : ℤ) + e) * 30103 / 100000 + 1 else ((m.log2 : ℤ) + e) * 30103 / 100000 := by
    simp only [leadingExponent, reaches, decide_eq_true_eq]
  rw [hlead]
  split_ifs with h
  · rw [add_assoc]
    exact ⟨(reaches_iff _ _ _).mp h, habove⟩
  · rw [reaches_iff, not_le] at h
    exact ⟨hbelow, h⟩

omit hm in
theorem leadingExponent_ge : -324 ≤ leadingExponent m e := by
  unfold leadingExponent
  dsimp only
  split_ifs <;> omega

end Leading

/-! ## The search -/

theorem search_spec {i : Interval} {tie : Tie} {last : ℤ} (tries : ℕ)
    (h : ∃ c, (Ruler.at i last).nearest? tie = some c) : ∃ c grid, last ≤ grid ∧
      i.Covers (Scaled.value ⟨c, grid⟩) ∧ c ≤ (Ruler.at i grid).floor + 1 ∧
      search i tie (tries + 1) (last + tries) = stripZeros 20 ⟨c, grid⟩ := by
  induction tries with
  | zero =>
    obtain ⟨c, hc⟩ := h
    obtain ⟨hcovers, hfloor⟩ := Ruler.nearest?_spec hc
    refine ⟨c, last, le_rfl, hcovers, hfloor, ?_⟩
    rw [search, Nat.cast_zero, add_zero, hc]
  | succ tries ih =>
    cases hc : (Ruler.at i (last + (tries + 1 : ℕ))).nearest? tie with
    | some c =>
      obtain ⟨hcovers, hfloor⟩ := Ruler.nearest?_spec hc
      exact ⟨c, _, by omega, hcovers, hfloor, by rw [search, hc]⟩
    | none =>
      obtain ⟨c, grid, hgrid, hcovers, hfloor, hsearch⟩ := ih
      refine ⟨c, grid, hgrid, hcovers, hfloor, ?_⟩
      rw [search, hc, ← hsearch]
      push_cast
      ring_nf

/-! ## The shortest decimal -/

private theorem low_around (m : ℕ) (e : ℤ) :
    (Interval.around m e).low = 4 * m - 1 ∧ m = 2 ^ 52 ∨ (Interval.around m e).low = 4 * m - 2 := by
  unfold Interval.around
  dsimp only
  split_ifs with h
  · exact .inl ⟨rfl, h.1⟩
  · exact .inr rfl

section Shortest

variable {m : ℕ} {e : ℤ} (hm : 0 < m)

include hm

private theorem around_ordered : 0 < (Interval.around m e).low ∧
    (Interval.around m e).low < (Interval.around m e).value ∧
    (Interval.around m e).value < (Interval.around m e).high := by
  unfold Interval.around
  dsimp only
  split_ifs <;> omega

variable (hbits : m < 2 ^ 53) (hlow : -1074 ≤ e) (hhigh : e ≤ 971)

include hbits hlow hhigh

private theorem log2_bounds : -1074 ≤ (m.log2 : ℤ) + e ∧ (m.log2 : ℤ) + e < 1024 := by
  have hlog : m.log2 < 53 := (Nat.log2_lt hm.ne').mpr hbits
  omega

private theorem step_lt : (Interval.around m e).point (Interval.around m e).low +
    ((10 : ℕ) : ℝ) ^ (leadingExponent m e - 16) < (Interval.around m e).point (Interval.around m e).high := by
  obtain ⟨hleast, hmost⟩ := log2_bounds hm hbits hlow hhigh
  have hlead := (leadingExponent_spec hm hleast hmost).1
  have hunit : ((2 : ℕ) : ℝ) ^ e = 4 * ((2 : ℕ) : ℝ) ^ (e - 2) := by
    rw [zpow_sub₀ (by norm_num)]
    push_cast
    ring
  have hstep : ((10 : ℕ) : ℝ) ^ leadingExponent m e =
      ((10 : ℕ) : ℝ) ^ (leadingExponent m e - 16) * 10 ^ 16 := by
    rw [zpow_sub₀ (by norm_num)]
    norm_num
  have hhigh' : (Interval.around m e).point (Interval.around m e).high =
      (4 * m + 2) * ((2 : ℕ) : ℝ) ^ (e - 2) := by
    simp [Interval.point, Interval.around]
  have hlow' : (Interval.around m e).point (Interval.around m e).low =
      (Interval.around m e).low * ((2 : ℕ) : ℝ) ^ (e - 2) := rfl
  have hpos : 0 < ((2 : ℕ) : ℝ) ^ (e - 2) := by positivity
  have hm' : (m : ℝ) ≤ 2 ^ 53 := by exact_mod_cast hbits.le
  rw [hunit, hstep] at hlead
  rw [hhigh', hlow']
  generalize ((2 : ℕ) : ℝ) ^ (e - 2) = unit at *
  generalize ((10 : ℕ) : ℝ) ^ (leadingExponent m e - 16) = step at *
  -- At a power of two the interval is narrower, but there the significand is known.
  rcases low_around m e with ⟨h, hm''⟩ | h
  · rw [h, Nat.cast_sub (by omega)]
    have hwide : (m : ℝ) = 2 ^ 52 := by exact_mod_cast hm''
    rw [hwide] at hlead ⊢
    push_cast [hwide]
    linarith
  · rw [h, Nat.cast_sub (by omega)]
    have hscaled : (m : ℝ) * unit ≤ 2 ^ 53 * unit := mul_le_mul_of_nonneg_right hm' hpos.le
    push_cast
    linarith

variable (tie : Tie)

/-- The search ends on one of seventeen grids, with a point next to the value. -/
private theorem exists_search : ∃ c grid, leadingExponent m e - 16 ≤ grid ∧
    (Interval.around m e).Covers (Scaled.value ⟨c, grid⟩) ∧
    c ≤ (Ruler.at (.around m e) grid).floor + 1 ∧ shortest tie m e = stripZeros 20 ⟨c, grid⟩ := by
  obtain ⟨-, hbelow, habove⟩ := around_ordered (e := e) hm
  have hfound := Ruler.exists_nearest? tie hbelow habove (step_lt hm hbits hlow hhigh)
  obtain ⟨c, grid, hgrid, hcovers, hfloor, hsearch⟩ := search_spec 16 hfound
  refine ⟨c, grid, hgrid, hcovers, hfloor, ?_⟩
  rw [shortest, if_neg hm.ne', ← hsearch]
  norm_num

theorem shortest_covers : (Interval.around m e).Covers (shortest tie m e).value := by
  obtain ⟨c, grid, -, hcovers, -, hshortest⟩ := exists_search hm hbits hlow hhigh tie
  rwa [hshortest, (stripZeros_spec 20 _).1]

theorem shortest_digits_pos : 0 < (shortest tie m e).digits := by
  obtain ⟨hzero, -, -⟩ := around_ordered (e := e) hm
  have hpos := ((Interval.around m e).point_strictMono hzero).trans_le
    (shortest_covers hm hbits hlow hhigh tie).bounds.1
  rw [Nat.pos_iff_ne_zero]
  intro hnone
  rw [Scaled.value, hnone, Interval.point, Nat.cast_zero, zero_mul, zero_mul] at hpos
  exact lt_irrefl _ hpos

/-- Seventeen digits always suffice; rounded up, they may all be nines and become a power of ten. -/
theorem shortest_digits_le : (shortest tie m e).digits ≤ 10 ^ 17 := by
  obtain ⟨c, grid, hgrid, -, hfloor, hshortest⟩ := exists_search hm hbits hlow hhigh tie
  obtain ⟨hleast, hmost⟩ := log2_bounds hm hbits hlow hhigh
  have hlead := (leadingExponent_spec hm hleast hmost).2
  have hbelow := (@Ruler.floor_le (.around m e) grid).trans_lt
    ((Interval.point_around_value m e).trans_lt (by exact_mod_cast hlead))
  have hten : ((10 : ℕ) : ℝ) ^ (leadingExponent m e + 1) ≤ 10 ^ 17 * ((10 : ℕ) : ℝ) ^ grid := by
    calc ((10 : ℕ) : ℝ) ^ (leadingExponent m e + 1) ≤ ((10 : ℕ) : ℝ) ^ (17 + grid) :=
          zpow_le_zpow_right₀ (by norm_num) (by omega)
      _ = 10 ^ 17 * ((10 : ℕ) : ℝ) ^ grid := by
          rw [zpow_add₀ (by norm_num)]
          norm_num
  have hcount : ((Ruler.at (.around m e) grid).floor : ℝ) < 10 ^ 17 :=
    lt_of_mul_lt_mul_right (hbelow.trans_le hten) (by positivity)
  have hcount' : (Ruler.at (.around m e) grid).floor < 10 ^ 17 := by exact_mod_cast hcount
  rw [hshortest]
  exact (stripZeros_spec 20 _).2.1.trans (hfloor.trans hcount')

theorem shortest_exponent_ge : -340 ≤ (shortest tie m e).exponent := by
  obtain ⟨c, grid, hgrid, -, -, hshortest⟩ := exists_search hm hbits hlow hhigh tie
  obtain ⟨hleast, hmost⟩ := log2_bounds hm hbits hlow hhigh
  have hlead := leadingExponent_ge hleast hmost
  have hkept := (stripZeros_spec 20 ⟨c, grid⟩).2.2
  rw [hshortest]
  dsimp only at hkept
  omega

end Shortest

end WorkloadSynth.Decimal
