import PrivacyPass.Proof.Crypto.Voprf
import PrivacyPass.Proof.Wire.Token

/-
This file proves which tokens a private issuer accepts that do not name its key.
-/

namespace PrivacyPass.PrivateIssuer

open Library Crypto BlindEvaluation

section Verify

variable [CurveBackend]

/-- An issuer accepts exactly the private tokens whose authenticator is the output of its key. -/
theorem verify_iff (key : VoprfPrivateKey) (memory : TokenKeyId × UInt8) (token : Token) :
    (PrivateIssuer.create key memory).verify token = .ok true ↔
      token.tokenType = .voprfP384Sha384 ∧ ∃ k, key.scalar = some k ∧ 0 < k ∧ k < EcBackend.order ∧
        k < 256 ^ p384ScalarSize ∧ VoprfOutput k token.authenticatorInput.wire token.authenticator := by
  have short : token.authenticatorInput.wire.length ≤ maxInputSize := by
    rw [AuthenticatorInput.wire_length, maxInputSize]
    omega
  rw [PrivateIssuer.verify]
  split
  · next other =>
      constructor
      · intro accepted
        cases accepted
      · rintro ⟨typed, -⟩
        exact absurd typed other
  · next typed =>
      rw [Result.bind_ok (AuthenticatorInput.serialize_eq _)]
      constructor
      · intro accepted
        split at accepted
        · cases accepted
        · next server holds =>
            obtain ⟨k, found, positive, below, fits, rfl⟩ := privateIssuer_server_iff.mp holds
            exact ⟨not_not.mp typed, k, found, positive, below, fits, (verifyFinalize_iff fits short).mp accepted⟩
      · rintro ⟨-, k, found, positive, below, fits, outputs⟩
        have holds : (create key memory).server = some ⟨⟨some k⟩⟩ :=
          privateIssuer_server_iff.mpr ⟨k, found, positive, below, fits, rfl⟩
        rw [holds]
        exact (verifyFinalize_iff fits short).mpr outputs

/-- The token names the public key of the issuer. -/
def NamedBy (issuer : PrivateIssuer) (token : Token) : Prop :=
  (issuer.privateKey.publicKey >>= VoprfPublicKey.keyId) = .ok token.tokenKeyId

/-- An accepted token names the key of the issuer exactly when it does so anyway or is no private
token with the output of this key: the verification never looks at the named key. -/
theorem verify_namedBy_iff (key : VoprfPrivateKey) (memory : TokenKeyId × UInt8) (token : Token) :
    ((create key memory).verify token = .ok true → (create key memory).NamedBy token) ↔
      (create key memory).NamedBy token ∨ token.tokenType ≠ .voprfP384Sha384 ∨
        ∀ k, key.scalar = some k → 0 < k → k < EcBackend.order → k < 256 ^ p384ScalarSize →
          ¬ VoprfOutput k token.authenticatorInput.wire token.authenticator := by
  rw [verify_iff]
  constructor
  · intro binds
    by_cases named : (create key memory).NamedBy token
    · exact .inl named
    · by_cases typed : token.tokenType = .voprfP384Sha384
      · refine .inr (.inr ?_)
        intro k found positive below fits outputs
        exact named (binds ⟨typed, k, found, positive, below, fits, outputs⟩)
      · exact .inr (.inl typed)
  · intro condition accepted
    obtain ⟨typed, k, found, positive, below, fits, outputs⟩ := accepted
    rcases condition with named | other | foreign
    · exact named
    · exact absurd typed other
    · exact absurd outputs (foreign k found positive below fits)

end Verify

section Run

variable [CurveBackend] [AddCommGroup EcBackend.Point] {generator : EcBackend.Point}

/-- The client chooses the whole input of its authenticator, the named key included: every run with
the issuer ends with a token that the issuer accepts. -/
theorem verify_chosenInput (conforms : GroupConforms generator) (hashes : Sha384Succeeds) {k : Nat}
    (positive : 1 ≤ k) (below : k < EcBackend.order) (memory : TokenKeyId × UInt8)
    {input : AuthenticatorInput} (typed : input.tokenType = .voprfP384Sha384) {H : EcBackend.Point}
    (hashed : hashToCurve input.wire = .ok H) (nonzero : H ≠ 0) {r : Nat} (blinding : 1 ≤ r)
    (reduced : r < EcBackend.order) {draws : List Nat} {t : Nat} (drawn : drawScalar draws = some t) :
    ∃ data evaluation output,
      (⟨⟨some (k • generator)⟩⟩ : VoprfClient).blind (some r) input.wire = .ok data ∧
      (create ⟨some k⟩ memory).issue draws (.create .voprfP384Sha384
        (create ⟨some k⟩ memory).truncatedKeyId data.blindedElement) =
          .ok (.createVoprf evaluation.evaluatedElement evaluation.proof) ∧
      (⟨⟨some (k • generator)⟩⟩ : VoprfClient).finalize data evaluation = .ok output ∧
      (create ⟨some k⟩ memory).verify (.create input.tokenType input.nonce input.challengeDigest
        input.tokenKeyId output) = .ok true := by
  have blinded : r • H ≠ 0 := nsmul_ne_zero conforms.prime (conforms.torsion H) nonzero blinding reduced
  have issued : k • H ≠ 0 := nsmul_ne_zero conforms.prime (conforms.torsion H) nonzero positive below
  obtain ⟨proof, evaluates, size, verified⟩ :=
    blindEvaluate_eq conforms hashes positive below drawn blinded
  obtain ⟨output, finalized⟩ := finalizeOutput_ok hashes
    (show input.wire.length ≤ 65535 by
      rw [AuthenticatorInput.wire_length]
      omega)
    (show (octets (k • H)).length ≤ 65535 by
      rw [(bytesToPoint_octets conforms issued).2, p384ElementSize]
      omega)
  refine ⟨_, ⟨octets (k • r • H), proof⟩, output, blind_eq conforms _ hashed blinding reduced, ?_, ?_, ?_⟩
  · simp only [issue, TokenRequest.create, ne_eq, not_true_eq_false, if_false,
      privateIssuer_server conforms positive below memory]
    exact Result.bind_ok evaluates
  · rw [finalize_eq conforms positive below blinding reduced nonzero size verified, finalized]
  · apply (verify_iff _ _ _).mpr
    exact ⟨typed, k, rfl, positive, below, below.trans conforms.order_lt, H, k • H, octets (k • H), hashed,
      conforms.mul k H, pointToBytes_eq conforms _, finalized⟩

end Run

section Instances

/-- This input names a key that no issuer of the small group has. -/
def foreignInput : AuthenticatorInput :=
  ⟨.voprfP384Sha384, .zero 32, .zero 32, ⟨List.replicate 32 1, List.length_replicate⟩⟩

theorem foreignInput_hashToCurve : @hashToCurve smallBackend foreignInput.wire = .ok (2 : ZMod 5) := by
  rfl

/-- The issuer with the key 3 accepts a token for this input. -/
theorem verify_namedBy_differs : ¬ ∀ key memory token,
    @verify smallBackend (@create smallBackend.toEcBackend key memory) token = .ok true →
      @NamedBy smallBackend (@create smallBackend.toEcBackend key memory) token := by
  intro always
  obtain ⟨-, -, output, -, -, -, accepted⟩ := @verify_chosenInput smallBackend smallGroup (1 : ZMod 5)
    smallBackend_conforms (fun _ => ⟨_, rfl⟩) 3 (by decide) (by decide) (.zero 32, 0) foreignInput rfl
    (2 : ZMod 5) foreignInput_hashToCurve (show (2 : ZMod 5) ≠ 0 by decide) 2 (by decide) (by decide)
    [4] 4 rfl
  have named := always ⟨some 3⟩ (.zero 32, 0) _ accepted
  have own : (@VoprfPrivateKey.publicKey smallBackend.toEcBackend ⟨some 3⟩ >>=
      @VoprfPublicKey.keyId smallBackend.toEcBackend) = .ok (.zero 32) := rfl
  have same : FixedBytes.zero 32 = foreignInput.tokenKeyId := Except.ok.inj (own.symm.trans named)
  revert same
  decide

end Instances
end PrivacyPass.PrivateIssuer
