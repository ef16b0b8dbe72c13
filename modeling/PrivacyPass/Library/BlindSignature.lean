import Mathlib.FieldTheory.Finite.Basic
import Mathlib.Data.Nat.Squarefree

/-
This file develops blind signatures over a pair of exponents that undo each other.
-/

namespace PrivacyPass.Library.BlindSignature

section Exponents

variable {M : Type*} {e d : ℕ}

/-- Raising to both exponents gives every element back. -/
def Paired (M : Type*) [Monoid M] (e d : ℕ) : Prop := ∀ value : M, value ^ (e * d) = value

/-- The signature of a message is checked with the other exponent. -/
theorem Paired.check [Monoid M] (paired : Paired M e d) (message : M) :
    (message ^ d) ^ e = message := by
  rw [← pow_mul, mul_comm, paired]

/-- The factor leaves the signature of a blinded message. -/
theorem Paired.unblind [CommMonoid M] (paired : Paired M e d) {factor inverse : M}
    (cancels : factor * inverse = 1) (message : M) :
    (message * factor ^ e) ^ d * inverse = message ^ d := by
  calc (message * factor ^ e) ^ d * inverse
      = message ^ d * (factor ^ (e * d) * inverse) := by rw [mul_pow, ← pow_mul, mul_assoc]
    _ = message ^ d := by rw [paired, cancels, mul_one]

/-- A blinded message vanishes only with the message. -/
theorem blinded_ne_zero [CommMonoidWithZero M] {message factor inverse : M}
    (cancels : factor * inverse = 1) (nonzero : message ≠ 0) : message * factor ^ e ≠ 0 := by
  intro zero
  apply nonzero
  calc message = message * factor ^ e * inverse ^ e := by
        rw [mul_assoc, ← mul_pow, cancels, one_pow, mul_one]
    _ = 0 := by rw [zero, zero_mul]

/-- A signature vanishes only with the signed element. -/
theorem Paired.signature_ne_zero [MonoidWithZero M] (paired : Paired M e d) (positive : e ≠ 0)
    {value : M} (nonzero : value ≠ 0) : value ^ d ≠ 0 := by
  intro zero
  apply nonzero
  rw [← paired.check value, zero, zero_pow positive]

end Exponents

section Modular

variable {n e d : ℕ}

/-- The modulus is a product of distinct odd primes, and the exponents are inverse below each. -/
structure RsaExponents (n e d : ℕ) : Prop where
  odd : Odd n
  squarefree : Squarefree n
  inverse : ∀ p, p.Prime → p ∣ n → e * d ≡ 1 [MOD p - 1]

/-- Two odd primes and exponents that are inverse modulo `lcm (p - 1) (q - 1)` make an RSA key. -/
theorem rsaExponents_of_primes {p q : ℕ} (primeLeft : p.Prime) (primeRight : q.Prime)
    (different : p ≠ q) (oddLeft : Odd p) (oddRight : Odd q)
    (inverse : e * d ≡ 1 [MOD (p - 1).lcm (q - 1)]) : RsaExponents (p * q) e d where
  odd := oddLeft.mul oddRight
  squarefree := by
    apply (Nat.squarefree_mul_iff).mpr
    exact ⟨(Nat.coprime_primes primeLeft primeRight).mpr different,
      primeLeft.prime.squarefree, primeRight.prime.squarefree⟩
  inverse := by
    intro factor prime divides
    rcases (prime.dvd_mul).mp divides with left | right
    · rw [(Nat.prime_dvd_prime_iff_eq prime primeLeft).mp left]
      exact inverse.of_dvd (Nat.dvd_lcm_left _ _)
    · rw [(Nat.prime_dvd_prime_iff_eq prime primeRight).mp right]
      exact inverse.of_dvd (Nat.dvd_lcm_right _ _)

/-- Exponents that are inverse below an odd prime do not vanish. -/
theorem exponents_ne_zero {p : ℕ} (prime : p.Prime) (odd : p ≠ 2) (inverse : e * d ≡ 1 [MOD p - 1]) :
    e * d ≠ 0 := by
  have large := prime.two_le
  intro none
  rw [none] at inverse
  have small := Nat.le_of_dvd one_pos ((Nat.modEq_zero_iff_dvd).mp inverse.symm)
  omega

/-- Fermat's little theorem pairs the exponents below an odd prime. -/
theorem paired_of_prime {p : ℕ} (prime : p.Prime) (odd : p ≠ 2) (inverse : e * d ≡ 1 [MOD p - 1]) :
    Paired (ZMod p) e d := by
  have : Fact p.Prime := ⟨prime⟩
  intro value
  by_cases zero : value = 0
  · rw [zero, zero_pow (exponents_ne_zero prime odd inverse)]
  · have fermat := ZMod.pow_card_sub_one_eq_one zero
    calc value ^ (e * d) = value ^ (e * d % (p - 1)) := pow_eq_pow_mod _ fermat
      _ = value ^ (1 % (p - 1)) := by rw [inverse]
      _ = value ^ 1 := (pow_eq_pow_mod 1 fermat).symm
      _ = value := pow_one value

/-- A squarefree number divides what all its prime factors divide. -/
theorem dvd_of_prime_dvd (squarefree : Squarefree n) {value : ℕ}
    (divides : ∀ p, p.Prime → p ∣ n → p ∣ value) : n ∣ value := by
  rw [← Nat.prod_primeFactors_of_squarefree squarefree]
  apply Finset.prod_primes_dvd
  · intro p member
    exact (Nat.prime_of_mem_primeFactors member).prime
  · intro p member
    exact divides p (Nat.prime_of_mem_primeFactors member) (Nat.dvd_of_mem_primeFactors member)

/-- The exponents of an RSA key are paired for every number, prime to the modulus or not. -/
theorem RsaExponents.paired (key : RsaExponents n e d) : Paired (ZMod n) e d := by
  intro value
  obtain ⟨number, rfl⟩ := ZMod.intCast_surjective value
  rw [← Int.cast_pow, ← sub_eq_zero, ← Int.cast_sub, ZMod.intCast_zmod_eq_zero_iff_dvd,
    Int.natCast_dvd]
  apply dvd_of_prime_dvd key.squarefree
  intro p prime divides
  have odd : p ≠ 2 := by
    rintro rfl
    exact Nat.not_even_iff_odd.mpr key.odd (even_iff_two_dvd.mpr divides)
  have paired := paired_of_prime prime odd (key.inverse p prime divides)
  rw [← Int.natCast_dvd, ← ZMod.intCast_zmod_eq_zero_iff_dvd, Int.cast_sub, Int.cast_pow, paired,
    sub_self]

/-- The exponents undo each other in both orders. -/
theorem RsaExponents.symm (key : RsaExponents n e d) : RsaExponents n d e where
  odd := key.odd
  squarefree := key.squarefree
  inverse := by
    intro p prime divides
    rw [mul_comm]
    exact key.inverse p prime divides

section Residues

variable {message factor inverse : ℕ}

theorem natCast_eq_zero_of_lt {value : ℕ} (below : value < n) :
    (value : ZMod n) = 0 ↔ value = 0 := by
  rw [ZMod.natCast_eq_zero_iff]
  constructor
  · intro divides
    exact Nat.eq_zero_of_dvd_of_lt divides below
  · rintro rfl
    exact dvd_zero n

theorem natCast_mod_ne_zero {value : ℕ} : (value : ZMod n) ≠ 0 ↔ value % n ≠ 0 := by
  rw [Ne, ZMod.natCast_eq_zero_iff, Nat.dvd_iff_mod_eq_zero]

/-- The blinded message is a nonzero residue. -/
theorem blinded_mod_ne_zero (cancels : (factor : ZMod n) * inverse = 1) (nonzero : message ≠ 0)
    (below : message < n) : message * (factor ^ e % n) % n ≠ 0 := by
  have message_ne_zero : (message : ZMod n) ≠ 0 := mt (natCast_eq_zero_of_lt below).mp nonzero
  have blinded := blinded_ne_zero (e := e) cancels message_ne_zero
  apply natCast_mod_ne_zero.mp
  push_cast [ZMod.natCast_mod]
  exact blinded

/-- The signature of a nonzero residue is a nonzero residue. -/
theorem RsaExponents.signature_mod_ne_zero (key : RsaExponents n e d) (positive : e ≠ 0)
    {value : ℕ} (nonzero : value % n ≠ 0) : value ^ d % n ≠ 0 := by
  have signed := key.paired.signature_ne_zero positive (natCast_mod_ne_zero.mpr nonzero)
  apply natCast_mod_ne_zero.mp
  rw [Nat.cast_pow]
  exact signed

/-- The unblinded residue is the signature of the message, whatever the factor was. -/
theorem RsaExponents.unblind_mod (key : RsaExponents n e d)
    (cancels : (factor : ZMod n) * inverse = 1) (message : ℕ) :
    (message * (factor ^ e % n) % n) ^ d % n * inverse % n = message ^ d % n := by
  have unblinded := key.paired.unblind cancels (message : ZMod n)
  rw [← ZMod.natCast_eq_natCast_iff']
  push_cast [ZMod.natCast_mod]
  exact unblinded

/-- The power of the signature is the message. -/
theorem RsaExponents.check_mod (key : RsaExponents n e d) (below : message < n) :
    (message ^ d % n) ^ e % n = message := by
  have same : (((message ^ d % n) ^ e : ℕ) : ZMod n) = message := by
    push_cast [ZMod.natCast_mod]
    exact key.paired.check (message : ZMod n)
  calc (message ^ d % n) ^ e % n = message % n := (ZMod.natCast_eq_natCast_iff' _ _ n).mp same
    _ = message := Nat.mod_eq_of_lt below

end Residues

end Modular

end PrivacyPass.Library.BlindSignature
