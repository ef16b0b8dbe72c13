import Mathlib.NumberTheory.LucasPrimality

/-
This file raises residues to large powers by repeated squaring, and tests primes one above a multiple
of a power of two.
-/

namespace PrivacyPass.Library.Primality

/-- This function squares a residue a number of times. -/
def squareTimes (p : ℕ) : ℕ → ℕ → ℕ
  | 0, value => value
  | count + 1, value => squareTimes p count (value * value % p)

theorem natCast_squareTimes (p count value : ℕ) :
    (squareTimes p count value : ZMod p) = (value : ZMod p) ^ 2 ^ count := by
  induction count generalizing value with
  | zero => simp [squareTimes]
  | succ count ih =>
      rw [squareTimes, ih, ZMod.natCast_mod, Nat.cast_mul, ← pow_two, ← pow_mul, ← pow_succ']

/-- This function raises a residue to an exponent of few bits. -/
def powMod (modulus : ℕ) : ℕ → ℕ → ℕ → ℕ
  | 0, _, _ => 1 % modulus
  | bits + 1, base, exponent =>
      if exponent % 2 = 1 then
        base * powMod modulus bits (base * base % modulus) (exponent / 2) % modulus
      else powMod modulus bits (base * base % modulus) (exponent / 2)

theorem powMod_eq {modulus bits base exponent : ℕ} (few : exponent < 2 ^ bits) :
    powMod modulus bits base exponent = base ^ exponent % modulus := by
  induction bits generalizing base exponent with
  | zero =>
      obtain rfl : exponent = 0 := by omega
      rfl
  | succ bits ih =>
      have half : exponent / 2 < 2 ^ bits := by omega
      have squared : (base * base % modulus) ^ (exponent / 2) % modulus =
          base ^ (2 * (exponent / 2)) % modulus := by
        rw [← Nat.pow_mod, ← pow_two, ← pow_mul]
      rw [powMod, ih half, squared]
      split
      · next odd => rw [Nat.mul_mod_mod, ← pow_succ', show 2 * (exponent / 2) + 1 = exponent by omega]
      · next even => rw [show 2 * (exponent / 2) = exponent by omega]

/-- The powers of one residue show that a number is prime when the factors below it are known. -/
theorem prime_of_squareTimes {p k m a : ℕ} (prime : k.Prime) (shape : p = k * 2 ^ (m + 1) + 1)
    (half : squareTimes p m (a ^ k) % p = p - 1) (power : squareTimes p (m + 1) a % p ≠ 1) :
    p.Prime := by
  have below : p - 1 = k * 2 ^ (m + 1) := by omega
  have large : 2 < p := by
    have := Nat.mul_le_mul prime.two_le (Nat.one_le_two_pow (n := m + 1))
    omega
  have : Fact (2 < p) := ⟨large⟩
  have minusOne : (a : ZMod p) ^ (k * 2 ^ m) = -1 := by
    have cast : (squareTimes p m (a ^ k) : ZMod p) = ((p - 1 : ℕ) : ZMod p) := by
      rw [← half, ZMod.natCast_mod]
    rw [pow_mul, ← Nat.cast_pow, ← natCast_squareTimes, cast, Nat.cast_sub (by omega),
      ZMod.natCast_self, zero_sub, Nat.cast_one]
  apply lucas_primality p (a : ZMod p)
  · rw [below, pow_succ, ← mul_assoc, pow_mul, minusOne]
    exact neg_one_sq
  · intro q factor divides
    rw [below] at divides ⊢
    rcases factor.dvd_mul.mp divides with left | right
    · rw [(Nat.prime_dvd_prime_iff_eq factor prime).mp left, Nat.mul_div_cancel_left _ prime.pos]
      intro one
      apply power
      have cast : (squareTimes p (m + 1) a : ZMod p) = ((1 : ℕ) : ZMod p) := by
        rw [natCast_squareTimes, one, Nat.cast_one]
      rw [(ZMod.natCast_eq_natCast_iff' _ _ p).mp cast, Nat.mod_eq_of_lt (by omega)]
    · have two : q = 2 := (Nat.prime_dvd_prime_iff_eq factor Nat.prime_two).mp
        (factor.dvd_of_dvd_pow right)
      have quotient : k * 2 ^ (m + 1) / 2 = k * 2 ^ m := by
        rw [pow_succ, ← mul_assoc, Nat.mul_div_cancel _ (by decide)]
      rw [two, quotient, minusOne]
      exact ZMod.neg_one_ne_one

end PrivacyPass.Library.Primality
