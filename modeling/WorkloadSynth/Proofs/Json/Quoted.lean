import WorkloadSynth.Json.Token
import WorkloadSynth.Json.Value
import Mathlib.Data.List.Basic

/-!
# Quoted texts

What `quote` writes is read back by `quoted`, whatever characters the text has: each of them stands as it is
or as an escape, and either way the reader takes exactly this character (`quotedFrom_escapeChar`).
-/

set_option autoImplicit false

namespace WorkloadSynth.Json

private def fourDigits (n : Nat) : List Char := (Binary64.hexDigits 4 n).toList

private def spellsOut (n : Nat) : List Char → Bool
  | [a, b, c, d] => hexWord? a b c d = some n
  | _ => false

private theorem spellsOut_fourDigits : ∀ n ∈ List.range 0x20, spellsOut n (fourDigits n) = true := by
  decide +kernel

private theorem exists_fourDigits {n : Nat} (h : n < 0x20) :
    ∃ a b c d, fourDigits n = [a, b, c, d] ∧ hexWord? a b c d = some n := by
  have hspells := spellsOut_fourDigits n (List.mem_range.mpr h)
  unfold spellsOut at hspells
  split at hspells
  · next a b c d heq => exact ⟨a, b, c, d, heq, of_decide_eq_true hspells⟩
  · cases hspells

theorem quotedFrom_escapeChar (read : List Char) (c : Char) (rest : List Char) :
    quotedFrom read (escapeChar c ++ rest) = quotedFrom (c :: read) rest := by
  unfold escapeChar
  split_ifs with hquote hslash hn hr ht hb hf hcontrol
  · subst hquote; rfl
  · subst hslash; rfl
  · subst hn; rfl
  · subst hr; rfl
  · subst ht; rfl
  · subst hb; rfl
  · subst hf; rfl
  · obtain ⟨p, q, r, s, hdigits, hword⟩ := exists_fourDigits hcontrol
    change quotedFrom read ('\\' :: 'u' :: (fourDigits c.toNat ++ rest)) = _
    rw [hdigits]
    change quotedFrom read ('\\' :: 'u' :: p :: q :: r :: s :: rest) = _
    rw [quotedFrom, hword]
    dsimp only
    rw [if_neg (by omega), if_pos (.inl (by omega)), Char.ofNat_toNat]
  · rw [List.singleton_append, quotedFrom]
    · rw [if_neg hcontrol]
    · exact hquote
    · exact fun h _ => hslash h
    · exact fun _ _ _ _ _ h _ => hslash h
    · exact fun _ h _ => hslash h
    · exact fun _ _ h _ => hslash h

theorem quotedFrom_escaped (read : List Char) (cs : List Char) (rest : List Char) :
    quotedFrom read (cs.flatMap escapeChar ++ '"' :: rest) = .ok (cs.reverse ++ read, rest) := by
  induction cs generalizing read with
  | nil => rfl
  | cons c cs ih =>
      rw [List.flatMap_cons, List.append_assoc, quotedFrom_escapeChar, ih, List.reverse_cons, List.append_assoc]
      rfl

theorem toList_quote (s : String) : (quote s).toList = '"' :: (s.toList.flatMap escapeChar ++ ['"']) := by
  rw [quote, String.toList_ofList]
  rfl

theorem quoted_quote (s : String) (rest : List Char) :
    quoted (s.toList.flatMap escapeChar ++ '"' :: rest) = .ok (s, rest) := by
  unfold quoted
  rw [quotedFrom_escaped]
  change Except.ok (String.ofList (s.toList.reverse ++ []).reverse, rest) = _
  rw [List.append_nil, List.reverse_reverse, String.ofList_toList]

end WorkloadSynth.Json
