import WorkloadSynth.Decimal.Reading
import WorkloadSynth.Text.Blank
import Mathlib.Data.List.TakeWhile
import Mathlib.Tactic.NormNum

/-!
# Numerals

The digits of a natural number read as this number, as a whole or as a double, and as no word.  A text that
reads as a number of any kind has no characters but letters, digits, signs and points.
-/

set_option autoImplicit false

namespace WorkloadSynth.Decimal

/-! ## Digits -/

section Digits

variable {digits : List Char} (h : ∀ c ∈ digits, isDigit c = true)

include h

theorem splitSign_digits : splitSign digits = (false, digits) := by
  cases digits with
  | nil => rfl
  | cons c rest =>
      have hc := h c List.mem_cons_self
      unfold splitSign
      split
      · next heq =>
          obtain ⟨rfl, -⟩ := List.cons.inj heq
          exact absurd hc (by decide)
      · next heq =>
          obtain ⟨rfl, -⟩ := List.cons.inj heq
          exact absurd hc (by decide)
      · rfl

theorem allDigits?_digits (hne : digits ≠ []) : allDigits? digits = some (ofDigits digits) :=
  if_pos ⟨hne, List.all_eq_true.mpr h⟩

theorem map_toLower_digits : digits.map Char.toLower = digits := by
  have hkept : ∀ c ∈ digits, c.toLower = c := by
    intro c hc
    have hdigit := h c hc
    simp only [isDigit, Bool.and_eq_true, decide_eq_true_eq] at hdigit
    have hcapital : ¬ (c.val ≥ 'A'.val ∧ c.val ≤ 'Z'.val) := by
      rintro ⟨hA, -⟩
      exact absurd (UInt32.le_trans hA hdigit.2) (by decide)
    exact dif_neg hcapital
  exact (List.map_congr_left hkept).trans (List.map_id _)

theorem ofList_digits_ne {word : String} (hword : word.toList.all isDigit = false) :
    String.ofList digits ≠ word := by
  rintro rfl
  rw [String.toList_ofList, List.all_eq_true.mpr h] at hword
  cases hword

theorem readUnsigned?_digits (hne : digits ≠ []) :
    readUnsigned? digits = some (toFloat (ofDigits digits) 0) := by
  have hwhole : digits.takeWhile isDigit = digits := List.takeWhile_eq_self_iff.mpr h
  have hrest : digits.dropWhile isDigit = [] := List.dropWhile_eq_nil_iff.mpr h
  unfold readUnsigned?
  simp [hwhole, hrest, hne, readExponent?]

end Digits

/-! ## Numerals -/

theorem toList_numeral (n : ℕ) : (toString n).toList = Nat.toDigits 10 n := by
  rw [Nat.toString_eq_repr, Nat.toList_repr]

theorem isDigit_of_mem_numeral {n : ℕ} : ∀ c ∈ (toString n).toList, isDigit c = true := by
  intro c h
  rw [toList_numeral] at h
  exact Nat.isDigit_of_mem_toDigits (by norm_num) (by norm_num) h

theorem numeral_ne_nil (n : ℕ) : (toString n).toList ≠ [] := by
  rw [toList_numeral]
  exact Nat.toDigits_ne_nil

theorem ofDigits_numeral (n : ℕ) : ofDigits (toString n).toList = n := by
  rw [toList_numeral]
  have h := Nat.ofDigitChars_ten_toDigits (n := n)
  rw [Nat.ofDigitChars_eq_foldl] at h
  exact h

theorem readInteger?_numeral (n : ℕ) :
    readInteger? (toString n) = if n < 2 ^ 63 then some (n : ℤ) else none := by
  unfold readInteger?
  rw [splitSign_digits isDigit_of_mem_numeral]
  have hrange : (-0x8000000000000000 ≤ (n : ℤ) ∧ (n : ℤ) < 0x8000000000000000) ↔ n < 2 ^ 63 := by omega
  simp only [allDigits?_digits isDigit_of_mem_numeral (numeral_ne_nil n), ofDigits_numeral, bind, Option.bind,
    Bool.false_eq_true, if_false, hrange]

theorem readFloat?_numeral (n : ℕ) : readFloat? (toString n) = some (toFloat n 0) := by
  have hword {word : String} (h : word.toList.all isDigit = false) :
      String.ofList (toString n).toList ≠ word := ofList_digits_ne isDigit_of_mem_numeral h
  have hinfinite : ¬ (String.ofList (toString n).toList = "inf" ∨
      String.ofList (toString n).toList = "infinity") := by
    rintro (h | h)
    · exact hword (by decide) h
    · exact hword (by decide) h
  have hundefined : String.ofList (toString n).toList ≠ "nan" := hword (by decide)
  unfold readFloat?
  rw [splitSign_digits isDigit_of_mem_numeral]
  simp only [map_toLower_digits isDigit_of_mem_numeral, if_neg hinfinite, if_neg hundefined,
    readUnsigned?_digits isDigit_of_mem_numeral (numeral_ne_nil n), ofDigits_numeral, bind, Option.bind,
    Bool.false_eq_true, if_false]

theorem lower_numeral (n : ℕ) : Text.lower (toString n) = toString n := by
  rw [Text.lower, map_toLower_digits isDigit_of_mem_numeral, String.ofList_toList]

theorem numeral_ne {n : ℕ} {word : String} (h : word.toList.all isDigit = false) : toString n ≠ word := by
  rw [← String.ofList_toList (s := toString n)]
  exact ofList_digits_ne isDigit_of_mem_numeral h

/-- A numeral that is not too long needs no estimate of its size. -/
theorem toFloat_eq_ofScientific {n : ℕ} (hpos : 0 < n) (h : n < 10 ^ 20) :
    toFloat n 0 = Float.ofScientific n false 0 := by
  have hlength : (toString n).length ≤ 20 := by
    rw [Nat.toString_eq_repr]
    exact (Nat.length_repr_le_iff (by norm_num)).mpr h
  unfold toFloat
  dsimp only
  rw [if_neg (by omega), if_neg (by omega), if_pos le_rfl]
  rfl

/-! ## Characters of numbers -/

def IsPlain (c : Char) : Prop := c.isAlphanum = true ∨ c = '+' ∨ c = '-' ∨ c = '.'

theorem isPlain_of_isDigit {c : Char} (h : isDigit c = true) : IsPlain c :=
  .inl ((Bool.or_eq_true _ _).mpr (.inr h))

theorem isPlain_of_isAlpha {c : Char} (h : c.isAlpha = true) : IsPlain c :=
  .inl ((Bool.or_eq_true _ _).mpr (.inl h))

theorem isPlain_of_toLower {c : Char} (h : c.toLower.isAlpha = true) : IsPlain c := by
  by_cases hcapital : c.val ≥ 'A'.val ∧ c.val ≤ 'Z'.val
  · have hupper : c.isUpper = true := decide_eq_true hcapital
    exact isPlain_of_isAlpha ((Bool.or_eq_true _ _).mpr (.inl hupper))
  · have hkept : c.toLower = c := dif_neg hcapital
    rw [hkept] at h
    exact isPlain_of_isAlpha h

theorem isPlain_of_word {cs : List Char} {word : String} (h : String.ofList (cs.map Char.toLower) = word)
    (hword : word.toList.all Char.isAlpha = true) : ∀ c ∈ cs, IsPlain c := by
  subst h
  rw [String.toList_ofList, List.all_map, List.all_eq_true] at hword
  exact fun c hc => isPlain_of_toLower (hword c hc)

theorem isPlain_of_splitSign {cs : List Char} (h : ∀ c ∈ (splitSign cs).2, IsPlain c) :
    ∀ c ∈ cs, IsPlain c := by
  unfold splitSign at h
  split at h
  · exact List.forall_mem_cons.mpr ⟨.inr (.inr (.inl rfl)), h⟩
  · exact List.forall_mem_cons.mpr ⟨.inr (.inl rfl), h⟩
  · exact h

theorem isPlain_of_allDigits? {cs : List Char} {n : ℕ} (h : allDigits? cs = some n) :
    ∀ c ∈ cs, IsPlain c := by
  unfold allDigits? at h
  split at h
  · next hdigits => exact fun c hc => isPlain_of_isDigit (List.all_eq_true.mp hdigits.2 c hc)
  · cases h

theorem isPlain_of_readInteger? {s : String} {i : ℤ} (h : readInteger? s = some i) :
    ∀ c ∈ s.toList, IsPlain c := by
  obtain ⟨n, hn, -⟩ := Option.bind_eq_some_iff.mp h
  exact isPlain_of_splitSign (isPlain_of_allDigits? hn)

theorem isPlain_of_readExponent? {cs : List Char} {e : ℤ} (h : readExponent? cs = some e) :
    ∀ c ∈ cs, IsPlain c := by
  cases cs with
  | nil => exact nofun
  | cons mark rest =>
      rw [readExponent?] at h
      by_cases hmark : mark = 'e' ∨ mark = 'E'
      · rw [if_pos hmark] at h
        obtain ⟨n, hn, -⟩ := Option.bind_eq_some_iff.mp h
        have hplain : IsPlain mark := by rcases hmark with rfl | rfl <;> exact .inl (by decide)
        exact List.forall_mem_cons.mpr ⟨hplain, isPlain_of_splitSign (isPlain_of_allDigits? hn)⟩
      · rw [if_neg hmark] at h
        cases h

theorem isPlain_of_dropWhile {cs : List Char} (h : ∀ c ∈ cs.dropWhile isDigit, IsPlain c) :
    ∀ c ∈ cs, IsPlain c := by
  intro c hc
  rw [← List.takeWhile_append_dropWhile (p := isDigit) (l := cs)] at hc
  rcases List.mem_append.mp hc with hc | hc
  · exact isPlain_of_isDigit (List.mem_takeWhile_imp hc)
  · exact h c hc

theorem isPlain_of_readUnsigned? {cs : List Char} {x : Float} (h : readUnsigned? cs = some x) :
    ∀ c ∈ cs, IsPlain c := by
  apply isPlain_of_dropWhile
  unfold readUnsigned? at h
  generalize cs.dropWhile isDigit = rest at h ⊢
  dsimp only at h
  split at h
  · next tail =>
      split_ifs at h
      obtain ⟨e, he, -⟩ := Option.bind_eq_some_iff.mp h
      exact List.forall_mem_cons.mpr
        ⟨.inr (.inr (.inr rfl)), isPlain_of_dropWhile (isPlain_of_readExponent? he)⟩
  · split_ifs at h
    obtain ⟨e, he, -⟩ := Option.bind_eq_some_iff.mp h
    exact isPlain_of_readExponent? he

theorem isPlain_of_readFloat? {s : String} {x : Float} (h : readFloat? s = some x) :
    ∀ c ∈ s.toList, IsPlain c := by
  apply isPlain_of_splitSign
  unfold readFloat? at h
  generalize splitSign s.toList = halves at h ⊢
  obtain ⟨negative, rest⟩ := halves
  dsimp only at h ⊢
  by_cases hinfinite : String.ofList (rest.map Char.toLower) = "inf" ∨
      String.ofList (rest.map Char.toLower) = "infinity"
  · rcases hinfinite with hword | hword
    · exact isPlain_of_word hword (by decide)
    · exact isPlain_of_word hword (by decide)
  by_cases hundefined : String.ofList (rest.map Char.toLower) = "nan"
  · exact isPlain_of_word hundefined (by decide)
  rw [if_neg hinfinite, if_neg hundefined] at h
  obtain ⟨magnitude, hmagnitude, -⟩ := Option.bind_eq_some_iff.mp h
  exact isPlain_of_readUnsigned? hmagnitude

end WorkloadSynth.Decimal
