import PrivacyPass.Proof.Crypto.Voprf

/-
This file proves that a proof of the server which can be answered for two challenges guarantees the
use of the published key.
-/

namespace PrivacyPass.Crypto

open Library BlindEvaluation

section Soundness

variable [CurveBackend] [AddCommGroup EcBackend.Point] {generator : EcBackend.Point}

/-- Two answers for one pair of commitments give one logarithm of both points. -/
theorem recomputeCommitments_logarithm (computes : ComputesGroup generator) {Y R Z : EcBackend.Point}
    {d c s c' s' : Nat} {commitments : EcBackend.Point × EcBackend.Point}
    (composite : ¬ d ≡ 0 [MOD EcBackend.order]) (differ : ¬ c ≡ c' [MOD EcBackend.order])
    (first : recomputeCommitments Y (d • R) (d • Z) c s = .ok commitments)
    (second : recomputeCommitments Y (d • R) (d • Z) c' s' = .ok commitments) :
    ∃ k : Nat, Y = k • generator ∧ Z = k • R := by
  rw [recomputeCommitments_eq computes] at first second
  have same := Except.ok.inj (first.trans second.symm)
  exact special_soundness computes.prime computes.torsion composite differ
    (congrArg Prod.fst same) (congrArg Prod.snd same)

/-- The verifier answers whether the commitments that it recomputes hash to the challenge of the
proof, and where it recomputes the same commitments for two challenges, the evaluated point has the
logarithm of the public key, for every composite scalar and so for that of the verifier. -/
theorem verifyDleqProof_sound (computes : ComputesGroup generator) (Y R Z : EcBackend.Point) :
    (∀ proof accepted, verifyDleqProof Y R Z proof = .ok accepted ↔
        ∃ run cPrime, dleqRun Y R Z proof = .ok run ∧
          recomputeCommitments Y run.M run.compositeZ (proofChallenge proof) (proofResponse proof) =
            .ok (run.APrime, run.BPrime) ∧
          computeDleqChallenge Y run.M run.compositeZ run.APrime run.BPrime = .ok cPrime ∧
          accepted = decide (zeroPadded (proofChallenge proof) p384ScalarSize =
            zeroPadded cPrime p384ScalarSize)) ∧
      (∀ d c s c' s' commitments, ¬ d ≡ 0 [MOD EcBackend.order] → ¬ c ≡ c' [MOD EcBackend.order] →
        recomputeCommitments Y (d • R) (d • Z) c s = .ok commitments →
        recomputeCommitments Y (d • R) (d • Z) c' s' = .ok commitments →
        ∃ k : Nat, Y = k • generator ∧ Z = k • R) ∧
      ∀ d proof proof' run, computeCompositeScalar Y R Z = .ok d → ¬ d ≡ 0 [MOD EcBackend.order] →
        dleqRun Y R Z proof = .ok run → dleqRun Y R Z proof' = .ok run →
        proofChallenge proof ≠ proofChallenge proof' →
        ∃ k : Nat, Y = k • generator ∧ Z = k • R := by
  refine ⟨?_, ?_, ?_⟩
  · intro proof accepted
    rw [verifyDleqProof_eq_ok]
    constructor
    · rintro ⟨run, cPrime, ran, hashed, answered⟩
      exact ⟨run, cPrime, ran, (dleqRun_eq_ok.mp ran).2.2.2.2, hashed, answered⟩
    · rintro ⟨run, cPrime, ran, -, hashed, answered⟩
      exact ⟨run, cPrime, ran, hashed, answered⟩
  · intro d c s c' s' commitments composite differ first second
    exact recomputeCommitments_logarithm computes composite differ first second
  · intro d proof proof' run scaled composite first second differ
    obtain ⟨-, below, -, composites, recomputed⟩ := dleqRun_eq_ok.mp first
    obtain ⟨-, below', -, -, recomputed'⟩ := dleqRun_eq_ok.mp second
    rw [computeComposites_eq computes scaled] at composites
    obtain ⟨multiplied, scaledZ⟩ := Prod.mk.inj (Except.ok.inj composites)
    rw [← multiplied, ← scaledZ] at recomputed recomputed'
    have apart : ¬ proofChallenge proof ≡ proofChallenge proof' [MOD EcBackend.order] := by
      intro same
      exact differ (same.eq_of_lt_of_lt below below')
    exact recomputeCommitments_logarithm computes composite apart recomputed recomputed'

end Soundness

section Instances

/-- This library computes in the group of order 5 and hashes every message to one. -/
abbrev unitBackend : CurveBackend :=
  { smallBackend with evpSha384 := fun _ => some ⟨List.replicate 47 0 ++ [1], rfl⟩ }

abbrev unitGroup : AddCommGroup (@EcBackend.Point unitBackend.toEcBackend) :=
  (inferInstance : AddCommGroup (ZMod 5))

theorem unitBackend_computes : @ComputesGroup unitBackend unitGroup (1 : ZMod 5) :=
  @ComputesGroup.mk unitBackend unitGroup (1 : ZMod 5) (by decide)
    (show ∀ point : ZMod 5, 5 • point = 0 by decide) (fun _ _ => rfl) (fun _ _ _ => rfl) (fun _ _ => rfl)

set_option maxRecDepth 4000 in
theorem unitBackend_scalar : @computeCompositeScalar unitBackend.toEcBackend (3 : ZMod 5) (2 : ZMod 5)
    (1 : ZMod 5) = .ok 1 := by
  rfl

set_option maxRecDepth 4000 in
theorem unitBackend_challenge : @computeDleqChallenge unitBackend.toEcBackend (3 : ZMod 5) (2 : ZMod 5)
    (1 : ZMod 5) (4 : ZMod 5) (3 : ZMod 5) = .ok 1 := by
  rfl

/-- The key 3 is found from the two answers 1 and 3 to the challenges 1 and 2, and the verifier
accepts the first answer only. -/
theorem verifyDleqProof_sound_unit :
    @verifyDleqProof unitBackend (3 : ZMod 5) (2 : ZMod 5) (1 : ZMod 5)
      (BigEndian.toBytes 48 1 ++ BigEndian.toBytes 48 1) = .ok true ∧
    @verifyDleqProof unitBackend (3 : ZMod 5) (2 : ZMod 5) (1 : ZMod 5)
      (BigEndian.toBytes 48 2 ++ BigEndian.toBytes 48 3) = .ok false ∧
    ∃ k : Nat, (3 : ZMod 5) = k • 1 ∧ (1 : ZMod 5) = k • 2 := by
  have composites := @computeComposites_eq unitBackend unitGroup (1 : ZMod 5) unitBackend_computes _ _ _ _
    unitBackend_scalar
  let run := @DleqRun.mk unitBackend (2 : ZMod 5) (1 : ZMod 5) (4 : ZMod 5) (3 : ZMod 5)
  have recomputes {proof : Bytes} (c s : Nat) (challenge : proofChallenge proof = c)
      (response : proofResponse proof = s)
      (recomputed : @recomputeCommitments unitBackend (3 : ZMod 5) (2 : ZMod 5) (1 : ZMod 5) c s =
        .ok ((4 : ZMod 5), (3 : ZMod 5))) :
      @recomputeCommitments unitBackend (3 : ZMod 5) (2 : ZMod 5) (1 : ZMod 5) (proofChallenge proof)
        (proofResponse proof) = .ok ((4 : ZMod 5), (3 : ZMod 5)) := by
    rwa [challenge, response]
  have ran {proof : Bytes} (size : proof.length = p384ProofSize)
      (below : proofChallenge proof < 5 ∧ proofResponse proof < 5)
      (recomputed : @recomputeCommitments unitBackend (3 : ZMod 5) (2 : ZMod 5) (1 : ZMod 5)
        (proofChallenge proof) (proofResponse proof) = .ok ((4 : ZMod 5), (3 : ZMod 5))) :
      @dleqRun unitBackend (3 : ZMod 5) (2 : ZMod 5) (1 : ZMod 5) proof = .ok run :=
    (@dleqRun_eq_ok unitBackend _ _ _ _ run).mpr ⟨size, below.1, below.2, composites, recomputed⟩
  have first := @recomputes (BigEndian.toBytes 48 1 ++ BigEndian.toBytes 48 1) 1 1 (by decide)
    (by decide) rfl
  have second := @recomputes (BigEndian.toBytes 48 2 ++ BigEndian.toBytes 48 3) 2 3 (by decide)
    (by decide) rfl
  obtain ⟨answers, -, sound⟩ := @verifyDleqProof_sound unitBackend unitGroup (1 : ZMod 5)
    unitBackend_computes (3 : ZMod 5) (2 : ZMod 5) (1 : ZMod 5)
  refine ⟨(answers _ _).mpr ⟨run, 1, ran rfl (by decide) first, first, unitBackend_challenge, ?_⟩,
    (answers _ _).mpr ⟨run, 1, ran rfl (by decide) second, second, unitBackend_challenge, ?_⟩, ?_⟩
  · decide
  · decide
  · exact sound 1 _ _ run unitBackend_scalar (by decide) (ran rfl (by decide) first)
      (ran rfl (by decide) second) (by decide)

end Instances

end PrivacyPass.Crypto
