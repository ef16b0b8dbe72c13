import Mathlib.Data.ZMod.Basic
import Mathlib.Tactic.Ring
import PrivacyPass.Construction.Crypto.Bignum

/-
This file proves the sizes, the remainders and the inverses of the numbers of the crypto library.
-/

namespace PrivacyPass.Crypto

open Library

/-- A number fits into its bytes. -/
theorem lt_bnNumBytes (number : Nat) : number < 256 ^ bnNumBytes number := by
  by_cases zero : number = 0
  · rw [zero]
    exact Nat.pow_pos (by decide)
  · have bits : number < 2 ^ (Nat.log2 number + 1) := (Nat.log2_lt zero).mp (Nat.lt_succ_self _)
    have enough : Nat.log2 number + 1 ≤ 8 * bnNumBytes number := by
      rw [bnNumBytes, bnNumBits, if_neg zero]
      omega
    calc number < 2 ^ (Nat.log2 number + 1) := bits
      _ ≤ 2 ^ (8 * bnNumBytes number) := Nat.pow_le_pow_right (by decide) enough
      _ = 256 ^ bnNumBytes number := by rw [Nat.pow_mul]

/-- A number takes no more bytes than it fits into. -/
theorem bnNumBytes_le {number size : Nat} (fits : number < 256 ^ size) : bnNumBytes number ≤ size := by
  by_cases zero : number = 0
  · rw [zero]
    exact Nat.zero_le size
  · have bits : Nat.log2 number < 8 * size := by
      apply (Nat.log2_lt zero).mpr
      rwa [Nat.pow_mul]
    rw [bnNumBytes, bnNumBits, if_neg zero]
    omega

/-- The highest bit of a number bounds it from below. -/
theorem le_of_bnNumBits {number bits : Nat} (size : bnNumBits number = bits) (positive : 0 < bits) :
    2 ^ (bits - 1) ≤ number := by
  unfold bnNumBits at size
  split at size
  · omega
  · next nonzero =>
      rw [← size, Nat.add_sub_cancel]
      exact Nat.log2_self_le nonzero

theorem bnBn2BinPad_of_lt {number size : Nat} (fits : number < 256 ^ size) :
    bnBn2BinPad number size = some (BigEndian.toBytes size number) := by
  rw [bnBn2BinPad, if_pos (bnNumBytes_le fits)]

theorem zeroPadded_of_lt {number size : Nat} (fits : number < 256 ^ size) :
    zeroPadded number size = BigEndian.toBytes size number := by
  rw [zeroPadded, bnBn2BinPad_of_lt fits, Option.getD_some]

/-- Numbers that fit are told apart by their bytes. -/
theorem zeroPadded_inj {left right size : Nat} (leftFits : left < 256 ^ size)
    (rightFits : right < 256 ^ size) :
    zeroPadded left size = zeroPadded right size ↔ left = right := by
  rw [zeroPadded_of_lt leftFits, zeroPadded_of_lt rightFits]
  constructor
  · intro same
    rw [← BigEndian.ofBytes_toBytes leftFits, same, BigEndian.ofBytes_toBytes rightFits]
  · intro same
    rw [same]

/-- Two remainders are told apart by their classes. -/
theorem remainder_inj {modulus left right : Nat} (leftBelow : left < modulus)
    (rightBelow : right < modulus) : (left : ZMod modulus) = right ↔ left = right := by
  constructor
  · intro same
    exact ((ZMod.natCast_eq_natCast_iff _ _ _).mp same).eq_of_lt_of_lt leftBelow rightBelow
  · intro same
    rw [same]

section Remainders

variable {modulus : Nat} (positive : 0 < modulus)

include positive

/-- The remainder of an integer is reduced and stays in its class. -/
theorem emod_toNat_spec (number : Int) :
    (number % (modulus : Int)).toNat < modulus ∧
      (((number % (modulus : Int)).toNat : Nat) : ZMod modulus) = number := by
  have nonneg := Int.emod_nonneg number (show (modulus : Int) ≠ 0 by omega)
  have below := Int.emod_lt_of_pos number (show 0 < (modulus : Int) by omega)
  refine ⟨by omega, ?_⟩
  rw [← Int.cast_natCast, Int.toNat_of_nonneg nonneg, ZMod.intCast_mod]

theorem bnModAdd_spec (left right : Int) :
    bnModAdd left right modulus < modulus ∧
      ((bnModAdd left right modulus : Nat) : ZMod modulus) = left + right := by
  obtain ⟨below, same⟩ := emod_toNat_spec positive (left + right)
  exact ⟨below, same.trans (Int.cast_add left right)⟩

theorem bnModMul_spec (left right : Int) :
    bnModMul left right modulus < modulus ∧
      ((bnModMul left right modulus : Nat) : ZMod modulus) = left * right := by
  obtain ⟨below, same⟩ := emod_toNat_spec positive (left * right)
  exact ⟨below, same.trans (Int.cast_mul left right)⟩

/-- The inverse cancels the number and is reduced. -/
theorem bnModInverse_spec {number inverse : Nat} (found : bnModInverse number modulus = some inverse) :
    (number : ZMod modulus) * inverse = 1 ∧ inverse < modulus := by
  unfold bnModInverse at found
  split at found
  · next coprime =>
      obtain rfl := Option.some.inj found
      obtain ⟨below, same⟩ := emod_toNat_spec positive (Nat.gcdA number modulus)
      refine ⟨?_, below⟩
      have bezout := congrArg (fun value : Int => (value : ZMod modulus))
        (Nat.gcd_eq_gcd_ab number modulus)
      rw [coprime] at bezout
      push_cast [ZMod.natCast_self] at bezout
      rw [same, bezout]
      ring
  · cases found

end Remainders

end PrivacyPass.Crypto
