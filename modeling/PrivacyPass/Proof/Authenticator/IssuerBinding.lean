import PrivacyPass.Proof.Authenticator.Redemption

/-
This file proves which keys a validated token may come from.
-/

namespace PrivacyPass.TokenAuthenticator

open Library Crypto

section Binding

variable [CryptoBackend] {allowed : List ((Nat × Call) × Answer) → Nat × Call → Prop}
  {history : List ((Nat × Call) × Answer)} {authenticator : TokenAuthenticator}

/-- The authenticator copies an added key, and its origin copies the copy. -/
def CopiedTwice (key held : BlindRsaPublicKey) : Prop :=
  ∃ copy, Origin.copyRsaKey key = .ok copy ∧ Origin.copyRsaKey copy = .ok held

theorem CopiesKeepId.keyId_eq {key held : BlindRsaPublicKey} (copies : CopiesKeepId key)
    (copied : CopiedTwice key held) : held.keyId = key.keyId := by
  obtain ⟨copy, once, twice⟩ := copied
  exact (copies copy once).2 held twice

/-- A call brings the origin at most the copy of the key that it adds. -/
theorem holdsKey_of_step {input : Nat × Call} {id : TokenKeyId} {held : BlindRsaPublicKey}
    (holds : (machine.step authenticator input).2.origin.HoldsKey id held) :
    (∃ issuer key, input.2 = .addTrustedKey issuer key ∧
        (machine.step authenticator input).1 = .done ∧ CopiedTwice key held ∧ held.keyId = .ok id) ∨
      authenticator.origin.HoldsKey id held := by
  rcases input with ⟨now, call⟩
  cases call with
  | addTrustedKey issuer key =>
      change (authenticator.addTrustedKey issuer key).origin.HoldsKey id held at holds
      unfold addTrustedKey at holds
      dsimp only at holds
      split at holds
      · next copy copied =>
          rcases Origin.holdsKey_of_addBlindRsaKey holds with ⟨again, named⟩ | before
          · exact .inl ⟨issuer, key, rfl, rfl, ⟨copy, copied, again⟩, named⟩
          · exact .inr before
      · exact .inr holds
  | addTrustedVoprfKey issuer key =>
      obtain ⟨publicOrigin, found, holdsKey⟩ := holds
      rw [show (machine.step authenticator (now, .addTrustedVoprfKey issuer key)).2 =
        authenticator.addTrustedVoprfKey issuer key from rfl, addTrustedVoprfKey_publicOrigin] at found
      exact .inr ⟨publicOrigin, found, holdsKey⟩
  | validateAndRedeem token challenge =>
      change (authenticator.validateAndRedeem now token challenge).2.origin.HoldsKey id held at holds
      rw [(validateAndRedeem_keys authenticator now token challenge).2] at holds
      exact .inr holds
  | removeTrustedIssuer issuer => exact .inr holds
  | isTrusted issuer => exact .inr holds
  | validate token challenge => exact .inr holds
  | wouldBeReplay token => exact .inr holds
  | markRedeemed token => exact .inr holds
  | redemptionCacheSize => exact .inr holds
  | pruneRedemptionCache => exact .inr holds

/-- Every key that the origin verifies with is a copy of a key that was added. -/
theorem holdsKey_added {config : TokenAuthenticatorConfig}
    (runs : machine.Runs allowed (create config) history authenticator) {id : TokenKeyId}
    {held : BlindRsaPublicKey} (holds : authenticator.origin.HoldsKey id held) :
    ∃ time issuer key, ((time, .addTrustedKey issuer key), .done) ∈ history ∧
      CopiedTwice key held ∧ held.keyId = .ok id := by
  induction runs with
  | start =>
      obtain ⟨publicOrigin, found, -⟩ := holds
      cases found
  | step input before legal ih =>
      rcases holdsKey_of_step holds with ⟨issuer, key, added, answered, copied, named⟩ | earlier
      · rcases input with ⟨time, call⟩
        cases added
        exact ⟨time, issuer, key, by rw [answered]; simp, copied, named⟩
      · obtain ⟨time, issuer, key, member, copied, named⟩ := ih earlier
        exact ⟨time, issuer, key, List.mem_append_left _ member, copied, named⟩

/-- A validation that succeeds has verified the token with the copy of a key that was added under
some issuer name, and the token names this key where its copies keep its id. -/
theorem validate_added {config : TokenAuthenticatorConfig}
    (runs : machine.Runs allowed (create config) history authenticator) {now : Nat} {token : Token}
    {challenge : TokenChallenge}
    (valid : (authenticator.validate token challenge).valid = true ∨
      (authenticator.validateAndRedeem now token challenge).1.valid = true) :
    ∃ time issuer key held, ((time, .addTrustedKey issuer key), .done) ∈ history ∧
      CopiedTwice key held ∧ held.keyId = .ok token.tokenKeyId ∧
      held.verify (ByteWriter.build token.authenticatorInput.calls) token.authenticator = .ok true ∧
      (CopiesKeepId key → key.keyId = .ok token.tokenKeyId) := by
  have checked : (authenticator.check token challenge).valid = true :=
    valid.elim id check_of_validateAndRedeem
  obtain ⟨held, holds, verified⟩ := Origin.holdsKey_of_verify (verify_of_check checked)
  obtain ⟨time, issuer, key, added, copied, named⟩ := holdsKey_added runs holds
  exact ⟨time, issuer, key, held, added, copied, named, verified,
    fun copies => (copies.keyId_eq copied).symm.trans named⟩

end Binding

section Instances

open MultiKeyIssuer (sharedBackend sharedRsaKey sharedToken)

/-- The key of the issuer `j` is added, and its token validates for the challenge. -/
theorem validate_added_other :
    ∃ time issuer key held,
      ((time, @Call.addTrustedKey sharedBackend.toCryptoBackend issuer key), .done) ∈
        trustingHistory [0x6a] recordedModulus ∧
      @CopiedTwice sharedBackend.toCryptoBackend key held ∧
      @BlindRsaPublicKey.keyId sharedBackend.toRsaBackend held =
        .ok (sharedToken recordedModulus recordedExponent).tokenKeyId ∧
      @BlindRsaPublicKey.verify sharedBackend.toRsaBackend held
        (ByteWriter.build (sharedToken recordedModulus recordedExponent).authenticatorInput.calls)
        (sharedToken recordedModulus recordedExponent).authenticator = .ok true ∧
      (@CopiesKeepId sharedBackend.toCryptoBackend key →
        @BlindRsaPublicKey.keyId sharedBackend.toRsaBackend key =
          .ok (sharedToken recordedModulus recordedExponent).tokenKeyId) := by
  have keeps := sharedRsaKey_copiesKeepId recorded_exponents recordedModulus_bits
  exact @validate_added sharedBackend.toCryptoBackend _ _ _ briefConfig
    (trustingAuthenticator_runs briefConfig keeps :
      Machine.Runs _ (@copiesAllowed sharedBackend.toCryptoBackend) _ _ _) 1 _ _
    (.inl (trustingAuthenticator_valid recorded_exponents recordedModulus_bits briefConfig [0x6a]))

/-- The only key is of the issuer `j`, and its token validates for a challenge of another issuer. -/
theorem validate_other_issuer :
    (@machine sharedBackend.toCryptoBackend).Runs (@copiesAllowed sharedBackend.toCryptoBackend)
      (@create sharedBackend.toCryptoBackend briefConfig) (trustingHistory [0x6a] recordedModulus)
      (trustingAuthenticator briefConfig [0x6a] recordedModulus) ∧
    (@validate sharedBackend.toCryptoBackend (trustingAuthenticator briefConfig [0x6a] recordedModulus)
      (sharedToken recordedModulus recordedExponent) pssChallenge).valid = true ∧
    (@validateAndRedeem sharedBackend.toCryptoBackend
      (trustingAuthenticator briefConfig [0x6a] recordedModulus) 1
      (sharedToken recordedModulus recordedExponent) pssChallenge).1.valid = true ∧
    pssChallenge.issuerName = ascii "issuer.example.com" ∧
    ∀ time key, ((time, @Call.addTrustedKey sharedBackend.toCryptoBackend pssChallenge.issuerName key),
      Answer.done) ∉ trustingHistory [0x6a] recordedModulus := by
  have keeps := sharedRsaKey_copiesKeepId recorded_exponents recordedModulus_bits
  refine ⟨trustingAuthenticator_runs briefConfig keeps,
    trustingAuthenticator_valid recorded_exponents recordedModulus_bits briefConfig [0x6a], ?_, rfl, ?_⟩
  · rw [@validateAndRedeem_empty sharedBackend.toCryptoBackend _ 1 _ _ _
      (trustingAuthenticator_check recorded_exponents recordedModulus_bits briefConfig [0x6a]) rfl]
    rfl
  · intro time key member
    have same := congrArg (fun event => event.1.2) (List.mem_singleton.mp member)
    injection same with issuers
    exact absurd issuers (by decide)

end Instances

end PrivacyPass.TokenAuthenticator
