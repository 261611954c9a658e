import WorkloadSynth.Proofs.Decimal.Numeral
import WorkloadSynth.Proofs.Json.Scale

/-!
# Numbers in JSON text

The reader takes the digits before and after the point into one significand (`gather_eq`) and subtracts from
the exponent what stands after it.  So for each of the ways in which a decimal is laid out it arrives at the
digits and the power of ten of `asWritten`, and the text of a finite double is read as `reread` says
(`read_text`).  Whatever may follow a value in an array or an object ends the number.
-/

set_option autoImplicit false

namespace WorkloadSynth.Json

open Decimal (isDigit digitValue ofDigits ofDigitsFrom)

def Ends (rest : List Char) : Prop := ∀ c, rest.head? = some c → c = ',' ∨ c = ']' ∨ c = '\x7d'

namespace Number

/-! ## Digits -/

def NoDigit (rest : List Char) : Prop := ∀ c, rest.head? = some c → isDigit c = false

theorem noDigit_cons {c : Char} (h : isDigit c = false) (rest : List Char) : NoDigit (c :: rest) := by
  intro d hd
  obtain rfl : c = d := Option.some.inj hd
  exact h

theorem noDigit_of_ends {rest : List Char} (h : Ends rest) : NoDigit rest := by
  intro c hc
  rcases h c hc with rfl | rfl | rfl <;> decide

section Span

variable {digits rest : List Char} (h : ∀ c ∈ digits, isDigit c = true) (hrest : NoDigit rest)

include h hrest

theorem takeWhile_digits : (digits ++ rest).takeWhile isDigit = digits := by
  rw [List.takeWhile_append_of_pos h]
  cases rest with
  | nil => simp
  | cons c rest => rw [List.takeWhile_cons, hrest c rfl, if_neg Bool.false_ne_true, List.append_nil]

theorem dropWhile_digits : (digits ++ rest).dropWhile isDigit = rest := by
  rw [List.dropWhile_append_of_pos h]
  cases rest with
  | nil => rfl
  | cons c rest => rw [List.dropWhile_cons, hrest c rfl, if_neg Bool.false_ne_true]

end Span

theorem le_ofDigitsFrom (start : ℕ) (digits : List Char) : start ≤ ofDigitsFrom start digits := by
  induction digits generalizing start with
  | nil => exact le_rfl
  | cons c digits ih => exact le_trans (by omega) (ih (10 * start + digitValue c))

theorem digitValue_le {c : Char} (h : isDigit c = true) : digitValue c ≤ 9 := by
  simp only [isDigit, Bool.and_eq_true, decide_eq_true_eq] at h
  have hbound : c.toNat ≤ '9'.toNat := h.2
  unfold digitValue
  exact Nat.sub_le_sub_right hbound _

theorem ofDigitsFrom_lt {digits : List Char} (h : ∀ c ∈ digits, isDigit c = true) (start : ℕ) :
    ofDigitsFrom start digits < (start + 1) * 10 ^ digits.length := by
  induction digits generalizing start with
  | nil => simp [ofDigitsFrom]
  | cons c digits ih =>
      have hdigit := digitValue_le (h c List.mem_cons_self)
      have hrest := ih (fun d hd => h d (List.mem_cons_of_mem _ hd)) (10 * start + digitValue c)
      calc ofDigitsFrom start (c :: digits) < (10 * start + digitValue c + 1) * 10 ^ digits.length := hrest
        _ ≤ (start + 1) * 10 * 10 ^ digits.length := Nat.mul_le_mul_right _ (by omega)
        _ = (start + 1) * 10 ^ (c :: digits).length := by rw [List.length_cons, pow_succ']; ring

theorem ofDigitsFrom_append (start : ℕ) (first second : List Char) :
    ofDigitsFrom start (first ++ second) = ofDigitsFrom (ofDigitsFrom start first) second :=
  List.foldl_append

theorem ofDigitsFrom_zeros (start n : ℕ) : ofDigitsFrom start (List.replicate n '0') = start * 10 ^ n := by
  induction n generalizing start with
  | zero => simp [ofDigitsFrom]
  | succ n ih =>
      rw [List.replicate_succ]
      change ofDigitsFrom (10 * start + 0) (List.replicate n '0') = _
      rw [ih, pow_succ']
      ring

theorem isDigit_of_mem_zeros {n : ℕ} {c : Char} (h : c ∈ List.replicate n '0') : isDigit c = true := by
  rw [List.eq_of_mem_replicate h]
  decide

theorem gather_eq (significand taken : ℕ) (digits : List Char) (h : ofDigitsFrom significand digits < 2 ^ 64) :
    gather significand taken digits = (ofDigitsFrom significand digits, taken + digits.length) := by
  induction digits generalizing significand taken with
  | nil => rfl
  | cons c digits ih =>
      have hnext : significand * 10 + digitValue c = 10 * significand + digitValue c := by ring
      have hle := le_ofDigitsFrom (10 * significand + digitValue c) digits
      have hlt : ¬ Nat.pow 2 64 ≤ 10 * significand + digitValue c := by
        rw [Nat.pow_eq, not_le]
        exact hle.trans_lt h
      rw [gather]
      simp only [hnext, if_neg hlt]
      rw [ih _ _ h, List.length_cons, Nat.add_right_comm, Nat.add_assoc]
      rfl

theorem numeral_head {n : ℕ} {more : List Char} (h : (toString n).toList = '0' :: more) : more = [] := by
  by_contra hmore
  have hdigits : ∀ c ∈ more, isDigit c = true := by
    intro c hc
    exact Decimal.isDigit_of_mem_numeral c (h ▸ List.mem_cons_of_mem _ hc)
  have hvalue : n = ofDigits more := by
    rw [← Decimal.ofDigits_numeral n, h]
    rfl
  have hlt := ofDigitsFrom_lt hdigits 0
  rw [zero_add, one_mul] at hlt
  have hlength : (toString n).length ≤ more.length := by
    rw [Nat.toString_eq_repr]
    exact (Nat.length_repr_le_iff (List.length_pos_iff.mpr hmore)).mpr (hvalue ▸ hlt)
  rw [← String.length_toList, h, List.length_cons] at hlength
  omega

/-! ## Padded numerals -/

section Padded

variable (n p : ℕ)

/-- A numeral with zeros before it, so that a digit is left before the last `p`. -/
def padded : List Char := List.replicate (p + 1 - (toString n).toList.length) '0' ++ (toString n).toList

def leading : List Char := (padded n p).take ((padded n p).length - p)

def trailing : List Char := (padded n p).drop ((padded n p).length - p)

theorem leading_append_trailing : leading n p ++ trailing n p = padded n p := List.take_append_drop _ _

theorem length_padded : (padded n p).length = p + 1 - (toString n).toList.length + (toString n).toList.length := by
  rw [padded, List.length_append, List.length_replicate]

theorem length_trailing : (trailing n p).length = p := by
  have hlength := length_padded n p
  rw [trailing, List.length_drop]
  omega

theorem leading_ne_nil : leading n p ≠ [] := by
  have hlength := length_padded n p
  rw [← List.length_pos_iff, leading, List.length_take]
  omega

theorem ofDigits_padded : ofDigits (padded n p) = n := by
  rw [padded, ofDigits, ofDigitsFrom_append, ofDigitsFrom_zeros, Nat.zero_mul]
  exact Decimal.ofDigits_numeral n

variable {n p}

theorem isDigit_of_mem_padded {c : Char} (h : c ∈ padded n p) : isDigit c = true := by
  rcases List.mem_append.mp h with h | h
  · exact isDigit_of_mem_zeros h
  · exact Decimal.isDigit_of_mem_numeral c h

theorem leading_head {more : List Char} (h : leading n p = '0' :: more) : more = [] := by
  rcases Nat.lt_or_ge p (toString n).toList.length with hlong | hshort
  · have hsame : padded n p = (toString n).toList := by
      rw [padded, Nat.sub_eq_zero_of_le hlong]
      rfl
    have hnumeral : (toString n).toList = '0' :: (more ++ trailing n p) := by
      rw [← List.cons_append, ← h, leading_append_trailing, hsame]
    exact (List.append_eq_nil_iff.mp (numeral_head hnumeral)).1
  · have hlength := length_padded n p
    have hcount := congrArg List.length h
    rw [leading, List.length_take, List.length_cons] at hcount
    exact List.length_eq_zero_iff.mp (by omega)

end Padded

/-! ## Reading the parts -/

def ofScale (negative : Bool) (significand : ℕ) (exponent : ℤ) (rest : List Char) :
    Except Fault (Number × List Char) :=
  (scale negative significand exponent).map fun x => (.float x, rest)

theorem readTail_ends (negative : Bool) (significand : ℕ) (exponent : ℤ) {rest : List Char} (h : Ends rest) :
    readTail negative significand exponent rest = ofScale negative significand exponent rest := by
  unfold readTail ofScale
  split
  · exact absurd (h 'e' rfl) (by decide)
  · exact absurd (h 'E' rfl) (by decide)
  · cases scale negative significand exponent <;> rfl

def afterDigits (negative : Bool) (n : ℕ) : Reader Number
  | '.' :: rest => readFraction negative n 0 rest
  | 'e' :: rest | 'E' :: rest => readExponent negative n 0 rest
  | rest => .ok (whole negative n, rest)

section Parts

variable (negative : Bool) {digits : List Char} (h : ∀ c ∈ digits, isDigit c = true)

include h

theorem readExponent_eq (significand : ℕ) (start : ℤ) (below : Bool) {rest : List Char} (hne : digits ≠ [])
    (hsize : ofDigits digits < 2 ^ 31) (hrest : NoDigit rest) :
    readExponent negative significand start ((if below then '-' else '+') :: (digits ++ rest)) =
      ofScale negative significand (if below then start - ofDigits digits else start + ofDigits digits) rest := by
  obtain ⟨c, more, rfl⟩ := List.exists_cons_of_ne_nil hne
  have hsign :
      Decimal.splitSign ((if below then '-' else '+') :: (c :: more ++ rest)) = (below, c :: more ++ rest) := by
    cases below <;> rfl
  have hdigit := h c List.mem_cons_self
  unfold readExponent
  rw [hsign]
  dsimp only
  rw [List.cons_append]
  dsimp only
  rw [hdigit, ← List.cons_append, takeWhile_digits h hrest, dropWhile_digits h hrest]
  simp only [Bool.not_true, Bool.false_eq_true, if_false, Nat.pow_eq, if_pos hsize]
  unfold ofScale
  cases scale negative significand (if below then start - ofDigits (c :: more) else start + ofDigits (c :: more))
    <;> rfl

theorem readFraction_eq (significand : ℕ) (exponent : ℤ) {rest : List Char} (hne : digits ≠ [])
    (hsize : ofDigitsFrom significand digits < 2 ^ 64) (hrest : NoDigit rest) :
    readFraction negative significand exponent (digits ++ rest) =
      readTail negative (ofDigitsFrom significand digits) (exponent - digits.length) rest := by
  unfold readFraction
  dsimp only
  rw [takeWhile_digits h hrest, dropWhile_digits h hrest, if_neg (by simpa using hne),
    gather_eq significand 0 digits hsize, Nat.zero_add]

/-- Digits that fit into sixty-four bits, the first of several not being a zero, leave nothing over. -/
theorem readUnsigned_eq {rest : List Char} (hne : digits ≠ []) (hzero : ∀ more, digits = '0' :: more → more = [])
    (hsize : ofDigits digits < 2 ^ 64) (hrest : NoDigit rest) :
    readUnsigned negative (digits ++ rest) = afterDigits negative (ofDigits digits) rest := by
  obtain ⟨c, more, rfl⟩ := List.exists_cons_of_ne_nil hne
  have hfirst : ¬ (c = '0' ∧ more ≠ []) := by
    rintro ⟨rfl, hmore⟩
    exact hmore (hzero more rfl)
  have hgather : gather 0 0 (c :: more) = (ofDigits (c :: more), 0 + (c :: more).length) := gather_eq 0 0 _ hsize
  unfold readUnsigned
  rw [takeWhile_digits h hrest, dropWhile_digits h hrest]
  dsimp only
  rw [if_neg hfirst, hgather]
  dsimp only
  rw [Nat.zero_add, Nat.sub_self]
  split
  · rfl
  · rfl
  · rfl
  · next hpoint hmark hcapital =>
      rw [if_pos rfl, afterDigits]
      · exact hpoint
      · exact hmark
      · exact hcapital

end Parts

/-! ## Reading a decimal -/

theorem readUnsigned_point (negative : Bool) {first second : List Char} {rest : List Char}
    (hfirst : ∀ c ∈ first, isDigit c = true) (hsecond : ∀ c ∈ second, isDigit c = true) (hne : first ≠ [])
    (hne' : second ≠ []) (hzero : ∀ more, first = '0' :: more → more = [])
    (hsize : ofDigits (first ++ second) < 2 ^ 64) (hrest : NoDigit rest) :
    readUnsigned negative (first ++ '.' :: (second ++ rest)) =
      readTail negative (ofDigits (first ++ second)) (-second.length) rest := by
  have hsplit : ofDigits (first ++ second) = ofDigitsFrom (ofDigits first) second :=
    ofDigitsFrom_append 0 first second
  rw [hsplit] at hsize ⊢
  rw [readUnsigned_eq negative hfirst hne hzero ((le_ofDigitsFrom _ _).trans_lt hsize) (noDigit_cons rfl _)]
  change readFraction negative (ofDigits first) 0 (second ++ rest) = _
  rw [readFraction_eq negative hsecond _ _ hne' hsize hrest, zero_sub]

theorem toList_exponent (exponent : ℤ) (rest : List Char) :
    (if exponent < 0 then "e-" ++ toString (-exponent).toNat else "e+" ++ toString exponent.toNat).toList ++
      rest = 'e' :: (if exponent < 0 then '-' else '+') :: ((toString exponent.natAbs).toList ++ rest) := by
  split_ifs with hsign
  · rw [show (-exponent).toNat = exponent.natAbs by omega, String.toList_append]
    rfl
  · rw [show exponent.toNat = exponent.natAbs by omega, String.toList_append]
    rfl

section Decimal

open Decimal (Scaled Layout zeros withPlaces)

variable (negative : Bool) {d : Scaled} {rest : List Char} (hrest : Ends rest)

include hrest

theorem readUnsigned_whole (hexponent : 0 ≤ d.exponent) (hzero : d.digits = 0 → d.exponent = 0)
    (hsize : d.digits * 10 ^ (d.exponent.toNat + 1) < 2 ^ 64) :
    readUnsigned negative ((d.inFull true).toList ++ rest) =
      ofScale negative (d.digits * 10 ^ (d.exponent.toNat + 1)) (-1) rest := by
  have hzeros : (if d.digits = 0 then "" else zeros d.exponent.toNat) = zeros d.exponent.toNat := by
    split_ifs with h
    · rw [hzero h]
      rfl
    · rfl
  have htext : (d.inFull true).toList ++ rest =
      ((toString d.digits).toList ++ List.replicate d.exponent.toNat '0') ++ '.' :: (['0'] ++ rest) := by
    unfold Scaled.inFull
    rw [if_pos hexponent, hzeros, if_pos rfl, zeros]
    simp
  have hdigits : ofDigits (((toString d.digits).toList ++ List.replicate d.exponent.toNat '0') ++ ['0']) =
      d.digits * 10 ^ (d.exponent.toNat + 1) := by
    rw [List.append_assoc, ← List.replicate_succ', ofDigits, ofDigitsFrom_append]
    change ofDigitsFrom (ofDigits (toString d.digits).toList) _ = _
    rw [Decimal.ofDigits_numeral, ofDigitsFrom_zeros]
  have hfirst : ∀ c ∈ (toString d.digits).toList ++ List.replicate d.exponent.toNat '0', isDigit c = true :=
    List.forall_mem_append.mpr ⟨Decimal.isDigit_of_mem_numeral, fun _ => isDigit_of_mem_zeros⟩
  have hne : (toString d.digits).toList ++ List.replicate d.exponent.toNat '0' ≠ [] :=
    List.append_ne_nil_of_left_ne_nil (Decimal.numeral_ne_nil _) _
  have hleading (more : List Char)
      (h : (toString d.digits).toList ++ List.replicate d.exponent.toNat '0' = '0' :: more) : more = [] := by
    obtain ⟨c, others, hnumeral⟩ := List.exists_cons_of_ne_nil (Decimal.numeral_ne_nil d.digits)
    rw [hnumeral, List.cons_append, List.cons.injEq] at h
    obtain ⟨rfl, rfl⟩ := h
    obtain rfl := numeral_head hnumeral
    have hnone : d.digits = 0 := by
      rw [← Decimal.ofDigits_numeral d.digits, hnumeral]
      rfl
    rw [hzero hnone]
    rfl
  have hlast : ∀ c ∈ ['0'], isDigit c = true := List.forall_mem_singleton.mpr (by decide)
  rw [htext, readUnsigned_point negative hfirst hlast hne (List.cons_ne_nil _ _) hleading (by rwa [hdigits])
    (noDigit_of_ends hrest), hdigits, readTail_ends negative _ _ hrest]
  rfl

theorem readUnsigned_places (hexponent : d.exponent < 0) (hsize : d.digits < 2 ^ 64) :
    readUnsigned negative ((d.inFull true).toList ++ rest) = ofScale negative d.digits d.exponent rest := by
  obtain ⟨p, hp⟩ : ∃ p : ℕ, d.exponent = -(p : ℤ) := ⟨(-d.exponent).toNat, by omega⟩
  have hplaces : p ≠ 0 := by omega
  have htext : (d.inFull true).toList ++ rest = leading d.digits p ++ '.' :: (trailing d.digits p ++ rest) := by
    unfold Scaled.inFull withPlaces
    rw [if_neg (by omega), hp, neg_neg, Int.toNat_natCast]
    dsimp only
    rw [if_neg hplaces, String.toList_ofList, List.append_assoc, List.cons_append]
    rfl
  have hleading : ∀ c ∈ leading d.digits p, isDigit c = true := fun c hc =>
    isDigit_of_mem_padded (List.mem_of_mem_take hc)
  have htrailing : ∀ c ∈ trailing d.digits p, isDigit c = true := fun c hc =>
    isDigit_of_mem_padded (List.mem_of_mem_drop hc)
  have hlength := length_trailing d.digits p
  have hvalue := ofDigits_padded d.digits p
  rw [← leading_append_trailing] at hvalue
  rw [htext, readUnsigned_point negative hleading htrailing (leading_ne_nil _ _)
    (List.ne_nil_of_length_pos (by omega)) (fun _ => leading_head) (by rwa [hvalue]) (noDigit_of_ends hrest),
    hvalue, hlength, hp, readTail_ends negative _ _ hrest]

theorem readExponent_numeral (significand : ℕ) (start exponent : ℤ) (hsize : exponent.natAbs < 2 ^ 31) :
    readExponent negative significand start
      ((if exponent < 0 then '-' else '+') :: ((toString exponent.natAbs).toList ++ rest)) =
        ofScale negative significand (start + exponent) rest := by
  have h := readExponent_eq negative Decimal.isDigit_of_mem_numeral significand start (exponent < 0)
    (Decimal.numeral_ne_nil exponent.natAbs) (by rwa [Decimal.ofDigits_numeral]) (noDigit_of_ends hrest)
  rw [Decimal.ofDigits_numeral] at h
  by_cases hsign : exponent < 0
  · rw [decide_eq_true hsign, if_pos rfl, if_pos rfl] at h
    rw [if_pos hsign, h]
    congr 1
    omega
  · rw [decide_eq_false hsign, if_neg Bool.false_ne_true, if_neg Bool.false_ne_true] at h
    rw [if_neg hsign, h]
    congr 1
    omega

theorem readUnsigned_scientific (hsize : d.digits < 2 ^ 64)
    (hexponent : (d.exponent + (((toString d.digits).toList.length : ℤ) - 1)).natAbs < 2 ^ 31) :
    readUnsigned negative ((d.scientific "e+").toList ++ rest) = ofScale negative d.digits d.exponent rest := by
  obtain ⟨c, others, hnumeral⟩ := List.exists_cons_of_ne_nil (Decimal.numeral_ne_nil d.digits)
  have hdigits : ∀ a ∈ c :: others, isDigit a = true := hnumeral ▸ Decimal.isDigit_of_mem_numeral
  have hvalue : ofDigits (c :: others) = d.digits := by
    rw [← hnumeral, Decimal.ofDigits_numeral]
  have hfirst : ∀ a ∈ [c], isDigit a = true := List.forall_mem_singleton.mpr (hdigits c List.mem_cons_self)
  have hzero (more : List Char) (h : [c] = '0' :: more) : more = [] := (List.cons.inj h).2.symm
  set exponent := d.exponent + (((toString d.digits).toList.length : ℤ) - 1) with hexponent'
  unfold Scaled.scientific
  dsimp only
  rw [String.toList_append, List.append_assoc, ← hexponent', toList_exponent, hnumeral]
  have hlength : (toString d.digits).toList.length = others.length + 1 := congrArg List.length hnumeral
  cases others with
  | nil =>
      dsimp only
      rw [String.toList_singleton,
        readUnsigned_eq negative hfirst (List.cons_ne_nil _ _) hzero (by rwa [hvalue]) (noDigit_cons rfl _),
        hvalue]
      change readExponent negative d.digits 0 _ = _
      rw [readExponent_numeral negative hrest _ _ _ hexponent, hexponent', hlength]
      congr 1
      rw [List.length_nil]
      omega
  | cons a others =>
      have hothers : ∀ b ∈ a :: others, isDigit b = true := fun b hb => hdigits b (List.mem_cons_of_mem c hb)
      dsimp only
      rw [String.toList_ofList]
      change readUnsigned negative ([c] ++ '.' :: ((a :: others) ++ 'e' :: _)) = _
      rw [readUnsigned_point negative hfirst hothers (List.cons_ne_nil _ _) (List.cons_ne_nil _ _) hzero
        (by rwa [List.singleton_append, hvalue]) (noDigit_cons rfl _), List.singleton_append, hvalue]
      change readExponent negative d.digits _ _ = _
      rw [readExponent_numeral negative hrest _ _ _ hexponent, hexponent', hlength]
      congr 1
      omega

theorem readUnsigned_write (hzero : d.digits = 0 → d.exponent = 0) (hdigits : d.digits ≤ 10 ^ 17)
    (hlow : -340 ≤ d.exponent) (hhigh : d.exponent ≤ 308) :
    readUnsigned negative ((Layout.json.write d).toList ++ rest) =
      ofScale negative (asWritten d).digits (asWritten d).exponent rest := by
  have hsize : d.digits < 2 ^ 64 := hdigits.trans_lt (by norm_num)
  have hlength : (toString d.digits).length ≤ 18 := by
    rw [Nat.toString_eq_repr]
    exact (Nat.length_repr_le_iff (by norm_num)).mpr (hdigits.trans_lt (by norm_num))
  have hbound := asWritten_digits hdigits
  unfold asWritten at hbound ⊢
  unfold Layout.write Layout.json
  dsimp only at hbound ⊢
  by_cases hfull : -5 ≤ d.exponent + (((toString d.digits).length : ℤ) - 1) ∧
      d.exponent + (((toString d.digits).length : ℤ) - 1) ≤ 15
  · rw [if_pos hfull]
    by_cases hwhole : 0 ≤ d.exponent
    · rw [if_pos ⟨hfull, hwhole⟩] at hbound ⊢
      exact readUnsigned_whole negative hrest hwhole hzero (hbound.trans_lt (by norm_num))
    · rw [if_neg fun h => hwhole h.2]
      exact readUnsigned_places negative hrest (not_le.mp hwhole) hsize
  · rw [if_neg hfull, if_neg fun h => hfull h.1]
    refine readUnsigned_scientific negative hrest hsize ?_
    rw [String.length_toList]
    omega

end Decimal

/-! ## Reading a number -/

theorem head_of_readUnsigned {negative : Bool} {cs : List Char} {r : Number × List Char}
    (h : readUnsigned negative cs = .ok r) : ∃ c rest, cs = c :: rest ∧ isDigit c = true := by
  cases cs with
  | nil => cases h
  | cons c rest =>
      refine ⟨c, rest, rfl, ?_⟩
      by_contra hc
      unfold readUnsigned at h
      rw [List.takeWhile_cons_of_neg hc] at h
      cases h

theorem read_of_readUnsigned {cs : List Char} {r : Number × List Char} (h : readUnsigned false cs = .ok r) :
    read cs = .ok r := by
  obtain ⟨c, rest, rfl, hc⟩ := head_of_readUnsigned h
  unfold read
  split
  · next heq =>
      obtain ⟨rfl, -⟩ := List.cons.inj heq
      exact absurd hc (by decide)
  · exact h

theorem head_of_read {cs : List Char} {r : Number × List Char} (h : read cs = .ok r) :
    ∃ c rest, cs = c :: rest ∧ (c = '-' ∨ isDigit c = true) := by
  unfold read at h
  split at h
  · exact ⟨_, _, rfl, .inl rfl⟩
  · obtain ⟨c, rest, rfl, hc⟩ := head_of_readUnsigned h
    exact ⟨c, rest, rfl, .inr hc⟩

/-- What the layout and the reader rely on: sixty-four bits and an exponent in range. -/
theorem shortest_bounds {m : ℕ} {e : ℤ} (hbits : m < 2 ^ 53) (hlow : -1074 ≤ e) (hhigh : e ≤ 971) :
    ((Decimal.shortest .toEven m e).digits = 0 → (Decimal.shortest .toEven m e).exponent = 0) ∧
      (Decimal.shortest .toEven m e).digits ≤ 10 ^ 17 ∧ -340 ≤ (Decimal.shortest .toEven m e).exponent ∧
      (Decimal.shortest .toEven m e).exponent ≤ 308 := by
  rcases Nat.eq_zero_or_pos m with rfl | hm
  · rw [Decimal.shortest, if_pos rfl]
    exact ⟨fun _ => rfl, by norm_num, by norm_num, by norm_num⟩
  · refine ⟨fun hnone => ?_, Decimal.shortest_digits_le hm hbits hlow hhigh .toEven,
      Decimal.shortest_exponent_ge hm hbits hlow hhigh .toEven, ?_⟩
    · exact absurd hnone (Decimal.shortest_digits_pos hm hbits hlow hhigh .toEven).ne'
    · by_cases hsign : 0 ≤ (Decimal.shortest .toEven m e).exponent
      · exact (shortest_product hm hbits hlow hhigh hsign).1
      · omega

theorem read_text {x : Float} (hx : x.isFinite = true) {rest : List Char} (hrest : Ends rest) :
    read ((Decimal.Layout.json.text x).toList ++ rest) = .ok (.float (reread x), rest) := by
  obtain ⟨negative, m, e, hdecode, hbits, hlow, hhigh, -, -⟩ := Binary64.decode_finite hx
  obtain ⟨hzero, hdigits, hleast, hmost⟩ := shortest_bounds hbits hlow hhigh
  have hscale := scale_written hx
  rw [Binary64.isNegative_of_decode hdecode, written_eq hdecode] at hscale
  have hunsigned : readUnsigned negative
      ((Decimal.Layout.json.write (Decimal.shortest .toEven m e)).toList ++ rest) =
        .ok (.float (reread x), rest) := by
    rw [readUnsigned_write negative hrest hzero hdigits hleast hmost, ofScale, hscale]
    rfl
  have htext : Decimal.Layout.json.text x =
      (if negative then "-" else "") ++ Decimal.Layout.json.write (Decimal.shortest .toEven m e) := by
    rw [Decimal.Layout.text, hdecode]
    rfl
  rw [htext, String.toList_append, List.append_assoc]
  cases negative with
  | false => exact read_of_readUnsigned hunsigned
  | true => exact hunsigned

theorem read_numeral {n : ℕ} (hn : n < 2 ^ 64) {rest : List Char} (hrest : Ends rest) :
    read ((toString n).toList ++ rest) = .ok (.natural n, rest) := by
  apply read_of_readUnsigned
  rw [readUnsigned_eq false Decimal.isDigit_of_mem_numeral (Decimal.numeral_ne_nil n) (fun _ => numeral_head)
    (by rwa [Decimal.ofDigits_numeral]) (noDigit_of_ends hrest), Decimal.ofDigits_numeral]
  unfold afterDigits
  split
  · exact absurd (hrest '.' rfl) (by decide)
  · exact absurd (hrest 'e' rfl) (by decide)
  · exact absurd (hrest 'E' rfl) (by decide)
  · rfl

end Number

end WorkloadSynth.Json
