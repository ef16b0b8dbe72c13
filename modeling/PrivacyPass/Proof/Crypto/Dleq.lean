import PrivacyPass.Construction.Crypto.VoprfProtocol
import PrivacyPass.Library.BlindEvaluation

/-
This file proves what the verifier of the evaluation proof computes before it hashes the commitments.
-/

namespace PrivacyPass.Crypto

open Library BlindEvaluation

/-- The crypto library computes in a group of prime order. -/
structure ComputesGroup [CurveBackend] [AddCommGroup EcBackend.Point] (generator : EcBackend.Point) :
    Prop where
  prime : EcBackend.order.Prime
  torsion : ∀ point : EcBackend.Point, EcBackend.order • point = 0
  mul : ∀ scalar point, EcBackend.mul scalar point = some (scalar • point)
  mulAdd : ∀ scalar point factor,
    CurveBackend.mulAdd scalar point factor = some (scalar • generator + factor • point)
  add : ∀ left right, EcBackend.add left right = some (left + right)

section Verifier

variable [CurveBackend]

/-- The verifier answers whether the recomputed commitments hash to the challenge of the proof. -/
theorem verifyDleqProof_eq_ok {Y R Z : EcBackend.Point} {proof : Bytes} {accepted : Bool} :
    verifyDleqProof Y R Z proof = .ok accepted ↔
      ∃ run cPrime, dleqRun Y R Z proof = .ok run ∧
        computeDleqChallenge Y run.M run.compositeZ run.APrime run.BPrime = .ok cPrime ∧
        accepted = decide (zeroPadded (proofChallenge proof) p384ScalarSize =
          zeroPadded cPrime p384ScalarSize) := by
  unfold verifyDleqProof
  constructor
  · intro answered
    obtain ⟨run, ran, answered⟩ := Result.bind_eq_ok.mp answered
    obtain ⟨cPrime, hashed, answered⟩ := Result.bind_eq_ok.mp answered
    exact ⟨run, cPrime, ran, hashed, (Except.ok.inj answered).symm⟩
  · rintro ⟨run, cPrime, ran, hashed, rfl⟩
    rw [Result.bind_ok ran]
    exact Result.bind_ok hashed

/-- A run passes the checks of the verifier. -/
theorem dleqRun_eq_ok {Y R Z : EcBackend.Point} {proof : Bytes} {run : DleqRun} :
    dleqRun Y R Z proof = .ok run ↔
      proof.length = p384ProofSize ∧ proofChallenge proof < EcBackend.order ∧
      proofResponse proof < EcBackend.order ∧ computeComposites Y R Z = .ok (run.M, run.compositeZ) ∧
      recomputeCommitments Y run.M run.compositeZ (proofChallenge proof) (proofResponse proof) =
        .ok (run.APrime, run.BPrime) := by
  constructor
  · intro ran
    unfold dleqRun at ran
    split at ran
    · cases ran
    · next size =>
        split at ran
        · cases ran
        · next range =>
            obtain ⟨⟨M, compositeZ⟩, composites, ran⟩ := Result.bind_eq_ok.mp ran
            obtain ⟨⟨APrime, BPrime⟩, recomputed, ran⟩ := Result.bind_eq_ok.mp ran
            cases ran
            exact ⟨not_not.mp size, by omega, by omega, composites, recomputed⟩
  · intro ⟨size, challenge, response, composites, recomputed⟩
    rw [dleqRun, if_neg (not_not.mpr size), if_neg (by omega), Result.bind_ok composites]
    exact Result.bind_ok recomputed

end Verifier

section Group

variable [CurveBackend] [AddCommGroup EcBackend.Point] {generator : EcBackend.Point}

theorem recomputeCommitments_eq (computes : ComputesGroup generator) (Y M compositeZ : EcBackend.Point)
    (c s : Nat) : recomputeCommitments Y M compositeZ c s =
      .ok (s • generator + c • Y, s • M + c • compositeZ) := by
  simp only [recomputeCommitments, computes.mulAdd, computes.mul, computes.add]

/-- Both composites are the multiples by one scalar. -/
theorem computeComposites_eq (computes : ComputesGroup generator) {Y R Z : EcBackend.Point} {d : Nat}
    (scaled : computeCompositeScalar Y R Z = .ok d) : computeComposites Y R Z = .ok (d • R, d • Z) := by
  rw [computeComposites, Result.bind_ok scaled, computes.mul, computes.mul]

end Group

end PrivacyPass.Crypto
