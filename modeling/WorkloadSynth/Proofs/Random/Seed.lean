import Mathlib.Data.FinEnum
import Mathlib.Data.Nat.ModEq
import Mathlib.Data.Nat.Prime.Basic
import WorkloadSynth.Random.Seed

/-!
# Seeds that do not collide

`mix` is a chain of offsets, shifted exclusive ors and products with odd constants.  Each of them keeps
different words apart, so `mix` is a bijection of the words, and the seed of a stream tells apart the
global seeds, the purposes and the indices it can be made of while the other two are held fixed.
-/

set_option autoImplicit false

namespace WorkloadSynth.Random

open Function (Injective Bijective)

theorem eq_zero_of_eq_shiftRight {n k : ℕ} (hk : k ≠ 0) (h : n = n >>> k) : n = 0 := by
  by_contra hn
  have hless : n >>> k < n := by
    rw [Nat.shiftRight_eq_div_pow]
    exact Nat.div_lt_self (Nat.pos_of_ne_zero hn) (Nat.one_lt_two_pow hk)
  omega

/-- A shifted exclusive or is linear, and nothing but zero goes to zero. -/
theorem xorShift_injective {k : UInt64} (hk : k.toNat % 64 ≠ 0) :
    Injective fun z : UInt64 => z ^^^ (z >>> k) := by
  intro z w h
  change z ^^^ (z >>> k) = w ^^^ (w >>> k) at h
  have hdifference : z ^^^ w = (z ^^^ w) >>> k := by
    rw [UInt64.shiftRight_xor, ← UInt64.xor_eq_zero_iff, ← UInt64.xor_eq_zero_iff.mpr h]
    ac_rfl
  have hzero : (z ^^^ w).toNat = 0 := by
    apply eq_zero_of_eq_shiftRight hk
    rw [← UInt64.toNat_shiftRight, ← hdifference]
  exact UInt64.xor_eq_zero_iff.mp (UInt64.toNat_inj.mp hzero)

theorem mul_odd_injective {c : UInt64} (hc : c.toNat % 2 = 1) : Injective fun z : UInt64 => z * c := by
  intro z w h
  have hcoprime : Nat.gcd (2 ^ 64) c.toNat = 1 :=
    Nat.Coprime.pow_left 64 (Nat.coprime_two_left.mpr (Nat.odd_iff.mpr hc))
  have hproducts : z.toNat * c.toNat ≡ w.toNat * c.toNat [MOD 2 ^ 64] := by
    have heq := congrArg UInt64.toNat h
    rwa [UInt64.toNat_mul, UInt64.toNat_mul] at heq
  have hwords := Nat.ModEq.cancel_right_of_coprime hcoprime hproducts
  exact UInt64.toNat_inj.mp (hwords.eq_of_lt_of_lt z.toNat_lt w.toNat_lt)

theorem mix_injective : Injective mix := by
  have hoffset : Injective fun z : UInt64 => z + 0x9e3779b97f4a7c15 := fun z w h =>
    (UInt64.add_left_inj _).mp h
  have hfirst : Injective fun z : UInt64 => (z ^^^ (z >>> 30)) * 0xbf58476d1ce4e5b9 :=
    (mul_odd_injective (by decide)).comp (xorShift_injective (by decide))
  have hsecond : Injective fun z : UInt64 => (z ^^^ (z >>> 27)) * 0x94d049bb133111eb :=
    (mul_odd_injective (by decide)).comp (xorShift_injective (by decide))
  have hlast : Injective fun z : UInt64 => z ^^^ (z >>> 31) := xorShift_injective (by decide)
  exact hlast.comp (hsecond.comp (hfirst.comp hoffset))

theorem Purpose.mem_all (p : Purpose) : p ∈ all := by
  cases p <;> decide

theorem Purpose.salt_injective : Injective salt := by
  intro p q h
  have hdistinct : (all.map salt).Nodup := by decide
  exact List.inj_on_of_nodup_map hdistinct p.mem_all q.mem_all h

/-- `mix` permutes the words.  With any two of the global seed, the purpose and the index held fixed, each
value of the third has a stream seed of its own. -/
theorem streamSeed_keeps_apart :
    Bijective mix ∧
      (∀ seed purpose, Injective fun index => streamSeed seed purpose index) ∧
      (∀ purpose index, Injective fun seed => streamSeed seed purpose index) ∧
      ∀ seed index, Injective fun purpose => streamSeed seed purpose index := by
  have hmixed (purpose : Purpose) (index : UInt64) {seed seed' : UInt64} {purpose' : Purpose}
      (h : streamSeed seed purpose index = streamSeed seed' purpose' index) :
      seed ^^^ purpose.salt = seed' ^^^ purpose'.salt :=
    mix_injective ((UInt64.add_left_inj index).mp (mix_injective h))
  refine ⟨Finite.injective_iff_bijective.mp mix_injective, ?_, ?_, ?_⟩
  · intro seed purpose i j h
    exact (UInt64.add_right_inj _).mp (mix_injective h)
  · intro purpose index seed seed' h
    exact (UInt64.xor_left_inj _).mp (hmixed purpose index h)
  · intro seed index p q h
    exact Purpose.salt_injective ((UInt64.xor_right_inj _).mp (hmixed p index h))

end WorkloadSynth.Random
