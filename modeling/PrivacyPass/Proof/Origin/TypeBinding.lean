import PrivacyPass.Proof.ChallengeAgreement
import PrivacyPass.Proof.Origin.Verify
import PrivacyPass.Proof.Wire.Token

/-
This file proves what binds the type of an accepted token.
-/

namespace PrivacyPass

open Library Crypto

/-- These types have RSA signatures of 256 bytes. -/
def TokenType.IsRsa (type : TokenType) : Prop := type = .blindRsa ∨ type = .partiallyBlindRsa

theorem TokenType.IsRsa.authenticatorSize {type : TokenType} (rsa : type.IsRsa) :
    (TokenTypeInfo.forType type).authenticatorSize = 256 := by
  rcases rsa with rfl | rfl <;> rfl

namespace PublicOrigin

variable [RsaBackend]

/-- A public origin accepts exactly the tokens of the RSA types that carry the digest of the challenge
and whose signature covers their own type. -/
theorem verify_iff {origin : PublicOrigin} {token : Token} {challenge : TokenChallenge} :
    origin.verify token challenge = .ok true ↔
      token.tokenType.IsRsa ∧ token.authenticator.length = 256 ∧
      challenge.digest.1 = .ok token.challengeDigest ∧
      ∃ key, origin.HoldsKey token.tokenKeyId key ∧
        key.verify token.authenticatorInput.wire token.authenticator = .ok true := by
  rw [verify_eq_ok, Token.validate_eq_ok, AuthenticatorInput.build_calls]
  constructor
  · intro ⟨⟨_, size⟩, rsa, digested, held⟩
    exact ⟨rsa, size.trans (TokenType.IsRsa.authenticatorSize rsa), digested, held⟩
  · intro ⟨rsa, size, digested, held⟩
    have known := TokenType.IsRsa.authenticatorSize rsa
    exact ⟨⟨by omega, size.trans known.symm⟩, rsa, digested, held⟩

/-- The origin sees a challenge through its digest only. -/
theorem verify_congr_digest {origin : PublicOrigin} {token : Token} {left right : TokenChallenge}
    (same : left.digest.1 = right.digest.1) : origin.verify token left = origin.verify token right := by
  unfold verify
  rw [same]

/-- An accepted token has one of the RSA types, whatever the type of the challenge: its own type
stands in the signed message, and the type of the challenge in the digested one. -/
theorem verify_types (origin : PublicOrigin) (token : Token) (challenge : TokenChallenge) :
    (origin.verify token challenge = .ok true ↔
      token.tokenType.IsRsa ∧ token.authenticator.length = 256 ∧
      challenge.digest.1 = .ok token.challengeDigest ∧
      ∃ key, origin.HoldsKey token.tokenKeyId key ∧
        key.verify (u16Bytes token.tokenType.value ++ (token.nonce.val ++ (token.challengeDigest.val ++
          token.tokenKeyId.val))) token.authenticator = .ok true) ∧
    (challenge.cachedDigest = none → ∀ digest, challenge.digest.1 = .ok digest →
      ∃ rest, challenge.serialize = .ok (u16Bytes challenge.tokenType.value ++ rest) ∧
        sha256 (u16Bytes challenge.tokenType.value ++ rest) = .ok digest) ∧
    ∀ other : TokenChallenge, other.digest.1 = challenge.digest.1 →
      origin.verify token other = origin.verify token challenge := by
  refine ⟨verify_iff, ?_, fun other same => verify_congr_digest same⟩
  intro fresh digest digested
  cases encoded : challenge.serialize with
  | error error =>
      unfold TokenChallenge.digest at digested
      rw [fresh] at digested
      simp only [encoded] at digested
      cases digested
  | ok bytes =>
      obtain ⟨-, rfl⟩ := TokenChallenge.serialize_eq_ok.mp encoded
      refine ⟨_, rfl, ?_⟩
      rw [← digested, TokenChallenge.digest_fresh fresh encoded]
      rfl

end PublicOrigin

section Instances

/-- This is the token of zeros with the other RSA type. -/
def partialToken : Token := { zeroToken with tokenType := .partiallyBlindRsa }

theorem zeroKey_held : @PublicOrigin.HoldsKey
    (@PublicOrigin.create zeroBackend.toRsaBackend zeroConfig [zeroKey]) (.zero 32) zeroKey :=
  (@PublicOrigin.holdsKey_addIssuerKey zeroBackend.toRsaBackend (.createEmpty zeroConfig) zeroKey zeroKey _
    (.zero 32) zeroKey_keyId).mpr (by rw [if_pos rfl])

/-- An origin accepts this token for a challenge of the type of blind signatures. -/
theorem verify_types_partial : @PublicOrigin.verify zeroBackend.toRsaBackend
      (@PublicOrigin.create zeroBackend.toRsaBackend zeroConfig [zeroKey]) partialToken zeroChallenge =
        .ok true ∧
    ∃ rest, zeroChallenge.serialize = .ok (u16Bytes zeroChallenge.tokenType.value ++ rest) := by
  obtain ⟨accepts, encodes, -⟩ := @PublicOrigin.verify_types zeroBackend.toRsaBackend
    (@PublicOrigin.create zeroBackend.toRsaBackend zeroConfig [zeroKey]) partialToken zeroChallenge
  obtain ⟨rest, encoded, -⟩ := encodes rfl (.zero 32) rfl
  exact ⟨accepts.mpr ⟨.inr rfl, List.length_replicate, rfl, zeroKey, zeroKey_held, rfl⟩, rest, encoded⟩

/-- The types of an accepted token and of the expected challenge may differ. -/
theorem verify_types_differ : ¬ ∀ origin token challenge,
    @PublicOrigin.verify zeroBackend.toRsaBackend origin token challenge = .ok true →
      token.tokenType = challenge.tokenType := by
  intro always
  have accepted := (@PublicOrigin.verify_iff zeroBackend.toRsaBackend
    (@PublicOrigin.create zeroBackend.toRsaBackend zeroConfig [zeroKey]) partialToken zeroChallenge).mpr
    ⟨.inr rfl, List.length_replicate, rfl, zeroKey, zeroKey_held, rfl⟩
  have same := always _ _ _ accepted
  revert same
  decide

end Instances
end PrivacyPass
