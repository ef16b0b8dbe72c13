import Mathlib.Algebra.Field.ZMod
import Mathlib.Algebra.Module.ZMod
import Mathlib.Data.Nat.ModEq
import Mathlib.GroupTheory.OrderOfElement
import Mathlib.Tactic.Ring

/-
This file develops the blind evaluation of a point under a secret scalar and the proof that two
points have one logarithm. The group is written additively, and the modulus kills its points.
-/

namespace PrivacyPass.Library.BlindEvaluation

variable {G : Type} [AddCommGroup G] {q : ℕ} {point : G}

/-- A scalar acts by its remainder. -/
theorem nsmul_congr (torsion : q • point = 0) {left right : ℕ} (same : left ≡ right [MOD q]) :
    left • point = right • point :=
  nsmul_eq_nsmul_iff_modEq.mpr (same.of_dvd (addOrderOf_dvd_iff_nsmul_eq_zero.mpr torsion))

/-- A prime modulus is the order of each point but zero. -/
theorem addOrderOf_eq (prime : q.Prime) (torsion : q • point = 0) (nonzero : point ≠ 0) :
    addOrderOf point = q := by
  rcases prime.eq_one_or_self_of_dvd _ (addOrderOf_dvd_iff_nsmul_eq_zero.mpr torsion) with one | whole
  · exact absurd (AddMonoid.addOrderOf_eq_one_iff.mp one) nonzero
  · exact whole

/-- A scalar below a prime modulus moves no point but zero to zero. -/
theorem nsmul_ne_zero (prime : q.Prime) (torsion : q • point = 0) (nonzero : point ≠ 0) {k : ℕ}
    (positive : 0 < k) (below : k < q) : k • point ≠ 0 := by
  intro vanishes
  have divides := addOrderOf_dvd_iff_nsmul_eq_zero.mpr vanishes
  rw [addOrderOf_eq prime torsion nonzero] at divides
  exact absurd (Nat.le_of_dvd positive divides) (Nat.not_le.mpr below)

/-- Two scalars below a prime modulus move a point but zero to different points. -/
theorem nsmul_injective (prime : q.Prime) (torsion : q • point = 0) (nonzero : point ≠ 0)
    {left right : ℕ} (leftBelow : left < q) (rightBelow : right < q)
    (same : left • point = right • point) : left = right := by
  have equal := nsmul_eq_nsmul_iff_modEq.mp same
  rw [addOrderOf_eq prime torsion nonzero] at equal
  exact equal.eq_of_lt_of_lt leftBelow rightBelow

/-- The inverse of the blinding scalar uncovers the evaluated point. -/
theorem unblind (torsion : q • point = 0) {r rInv : ℕ} (inverse : r * rInv ≡ 1 [MOD q]) (k : ℕ) :
    rInv • k • r • point = k • point := by
  calc rInv • k • r • point = k • (r * rInv) • point := by
        rw [smul_smul, smul_smul, smul_smul]
        congr 1
        ring
    _ = k • point := by rw [nsmul_congr torsion inverse, one_nsmul]

/-- The prover answers a challenge with its nonce less the challenge times its secret. -/
def response (q t c k : ℕ) : ℕ := (t + q - c * k % q) % q

theorem response_lt (positive : 0 < q) (t c k : ℕ) : response q t c k < q := Nat.mod_lt _ positive

/-- The challenge times the secret and the response add up to the nonce. -/
theorem response_modEq (positive : 0 < q) (t c k : ℕ) : response q t c k + c * k ≡ t [MOD q] := by
  have below : c * k % q ≤ t + q := (Nat.mod_lt _ positive).le.trans (Nat.le_add_left q t)
  calc response q t c k + c * k ≡ (t + q - c * k % q) + c * k % q [MOD q] :=
        (Nat.mod_modEq _ q).add (Nat.mod_modEq _ q).symm
    _ = t + q := Nat.sub_add_cancel below
    _ ≡ t [MOD q] := Nat.add_modEq_right

/-- The verifier computes the commitment of the prover from the response and the public point. -/
theorem commitment (positive : 0 < q) (torsion : q • point = 0) (t c k : ℕ) :
    response q t c k • point + c • k • point = t • point := by
  rw [smul_smul, ← add_nsmul]
  exact nsmul_congr torsion (response_modEq positive t c k)

section Extraction

variable [Fact q.Prime] [Module (ZMod q) G]

/-- Two answers to one commitment give the logarithm of the image. -/
theorem extract {base image : G} {c s c' s' : ZMod q} (differ : c ≠ c')
    (same : s • base + c • image = s' • base + c' • image) :
    image = ((s - s') / (c' - c)) • base := by
  have nonzero : c' - c ≠ 0 := sub_ne_zero.mpr (Ne.symm differ)
  have scaled : (c' - c) • image = (s - s') • base := by
    rw [sub_smul, sub_smul, sub_eq_sub_iff_add_eq_add, add_comm, ← same, add_comm]
  rw [div_eq_inv_mul, mul_smul, ← scaled, inv_smul_smul₀ nonzero]

/-- A common factor that is not zero is taken out of both points. -/
theorem smul_of_composite {base image : G} {d k : ZMod q} (nonzero : d ≠ 0)
    (composite : d • image = k • d • base) : image = k • base := by
  rw [smul_comm] at composite
  rw [← inv_smul_smul₀ nonzero image, composite, inv_smul_smul₀ nonzero]

end Extraction

/-- A prover that answers two challenges for one pair of commitments knows one logarithm of the public
point and of the evaluated point, also behind a composite scalar. -/
theorem special_soundness (prime : q.Prime) (torsion : ∀ point : G, q • point = 0)
    {generator Y R Z : G} {d c s c' s' : ℕ} (composite : ¬ d ≡ 0 [MOD q]) (differ : ¬ c ≡ c' [MOD q])
    (first : s • generator + c • Y = s' • generator + c' • Y)
    (second : s • d • R + c • d • Z = s' • d • R + c' • d • Z) :
    ∃ k : ℕ, Y = k • generator ∧ Z = k • R := by
  have field : Fact q.Prime := ⟨prime⟩
  let _ : Module (ZMod q) G := AddCommGroup.zmodModule torsion
  have cast (scalar : ℕ) (point : G) : scalar • point = (scalar : ZMod q) • point :=
    (Nat.cast_smul_eq_nsmul (ZMod q) scalar point).symm
  have apart : (c : ZMod q) ≠ c' := mt (ZMod.natCast_eq_natCast_iff _ _ _).mp differ
  have nonzero : (d : ZMod q) ≠ 0 := by
    intro zero
    exact composite ((ZMod.natCast_eq_natCast_iff _ _ _).mp (zero.trans Nat.cast_zero.symm))
  simp only [cast] at first second
  let k : ZMod q := (s - s') / (c' - c)
  refine ⟨k.val, ?_, ?_⟩
  · rw [cast, ZMod.natCast_zmod_val]
    exact extract apart first
  · rw [cast, ZMod.natCast_zmod_val]
    exact smul_of_composite nonzero (extract apart second)

end PrivacyPass.Library.BlindEvaluation
