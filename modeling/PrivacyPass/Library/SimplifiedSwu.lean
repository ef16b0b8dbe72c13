import Mathlib.NumberTheory.LegendreSymbol.QuadraticChar.Basic
import Mathlib.Tactic.FieldSimp
import Mathlib.Tactic.LinearCombination
import Mathlib.Tactic.Ring

/-
This file develops the simplified map of Shallue, van de Woestijne and Ulas to a Weierstrass curve.
The field, the curve and the constant of the map are arbitrary.
-/

namespace PrivacyPass.Library.SimplifiedSwu

variable {F : Type} [Field F]

/-- This is the right side of the equation of the curve. -/
def cubic (A B x : F) : F := x ^ 3 + A * x + B

section Candidates

variable (A B Z u : F)

def factor : F := Z * u ^ 2

/-- The denominator vanishes only in the exceptional case. -/
def denominator [DecidableEq F] : F :=
  if factor Z u ^ 2 + factor Z u = 0 then Z * A else (factor Z u ^ 2 + factor Z u) * -A

def first [DecidableEq F] : F := (factor Z u ^ 2 + factor Z u + 1) * B / denominator A Z u

def second [DecidableEq F] : F := factor Z u * first A B Z u

end Candidates

section Field

variable [DecidableEq F] {A B Z u : F}

theorem denominator_ne_zero (linear : A ≠ 0) (constant : Z ≠ 0) : denominator A Z u ≠ 0 := by
  unfold denominator
  split
  · exact mul_ne_zero constant linear
  · next regular => exact mul_ne_zero regular (neg_ne_zero.mpr linear)

/-- In the exceptional case the first candidate does not depend on the input. -/
theorem first_exceptional (exceptional : factor Z u ^ 2 + factor Z u = 0) :
    first A B Z u = B / (Z * A) := by
  rw [first, denominator, if_pos exceptional, exceptional, zero_add, one_mul]

/-- Outside the exceptional case the values of the candidates differ by the cube of the factor. -/
theorem cubic_second (linear : A ≠ 0) (regular : factor Z u ^ 2 + factor Z u ≠ 0) :
    cubic A B (second A B Z u) = factor Z u ^ 3 * cubic A B (first A B Z u) := by
  have nonzero : (factor Z u ^ 2 + factor Z u) * -A ≠ 0 := mul_ne_zero regular (neg_ne_zero.mpr linear)
  have fraction : first A B Z u * ((factor Z u ^ 2 + factor Z u) * -A) =
      (factor Z u ^ 2 + factor Z u + 1) * B := by
    rw [first, denominator, if_neg regular, div_mul_cancel₀ _ nonzero]
  unfold cubic second
  linear_combination (factor Z u - 1) * fraction

end Field
section Finite

variable [Fintype F]

/-- The product of two elements without a root has one. -/
theorem isSquare_mul [DecidableEq F] {a b : F} (left : ¬ IsSquare a) (right : ¬ IsSquare b) :
    IsSquare (a * b) := by
  have nonzero {c : F} (rootless : ¬ IsSquare c) : c ≠ 0 := by
    rintro rfl
    exact rootless (IsSquare.zero)
  apply (quadraticChar_one_iff_isSquare (mul_ne_zero (nonzero left) (nonzero right))).mp
  rw [map_mul, quadraticChar_neg_one_iff_not_isSquare.mpr left,
    quadraticChar_neg_one_iff_not_isSquare.mpr right]
  ring

/-- In a field whose order has the remainder 3 modulo 4 one power is a root of every square, and of no
other element. -/
theorem root_sq_iff (order : Fintype.card F % 4 = 3) (a : F) :
    (a ^ ((Fintype.card F + 1) / 4)) ^ 2 = a ↔ IsSquare a := by
  constructor
  · intro root
    exact ⟨a ^ ((Fintype.card F + 1) / 4), by rw [← sq, root]⟩
  · rintro ⟨b, rfl⟩
    have whole : (Fintype.card F + 1) / 4 * 2 * 2 = Fintype.card F + 1 := by omega
    calc ((b * b) ^ ((Fintype.card F + 1) / 4)) ^ 2
        = b ^ ((Fintype.card F + 1) / 4 * 2 * 2) := by rw [← sq, ← pow_mul, ← pow_mul]; ring
      _ = b ^ Fintype.card F * b := by rw [whole, pow_succ]
      _ = b * b := by rw [FiniteField.pow_card]

variable [DecidableEq F] {A B Z u : F}

/-- Where the first candidate is not on the curve, the second one is. -/
theorem isSquare_second (linear : A ≠ 0) (constant : ¬ IsSquare Z)
    (special : IsSquare (cubic A B (B / (Z * A)))) (fails : ¬ IsSquare (cubic A B (first A B Z u))) :
    IsSquare (cubic A B (second A B Z u)) := by
  have regular : factor Z u ^ 2 + factor Z u ≠ 0 := by
    intro exceptional
    rw [first_exceptional exceptional] at fails
    exact fails special
  have rootless : ¬ IsSquare (factor Z u) := by
    have nonzero : u ≠ 0 := by
      rintro rfl
      exact regular (by rw [factor]; ring)
    intro ⟨root, squared⟩
    apply constant
    refine ⟨root / u, ?_⟩
    rw [factor] at squared
    field_simp
    linear_combination squared
  rw [cubic_second linear regular]
  have product := (IsSquare.sq (factor Z u)).mul (isSquare_mul rootless fails)
  rwa [← mul_assoc, ← pow_succ] at product

end Finite

end PrivacyPass.Library.SimplifiedSwu
