import PrivacyPass.Construction.TokenProvider

/-
This file models the client that takes the keys of both kinds in their encodings.
-/

namespace PrivacyPass.Client

open Library Crypto

variable [IssuanceBackend]

/-- The type of the challenge selects the client. -/
def createTokenRequest (draws : ProviderDraws) (challenge : TokenChallenge) (issuerKey : PublicKey) :
    Result TokenRequestResult :=
  if challenge.tokenType ≠ issuerKey.type then
    .error ⟨.unsupportedTokenType, "Token type mismatch between challenge and key"⟩
  else if challenge.tokenType = .blindRsa ∨ challenge.tokenType = .partiallyBlindRsa then do
    let rsaKey ← BlindRsaPublicKey.fromSpki issuerKey.data
    PublicClient.createTokenRequest draws.toRequestDraws challenge rsaKey
  else if challenge.tokenType = .voprfP384Sha384 then do
    let voprfKey ← VoprfPublicKey.fromBytes issuerKey.data
    PrivateClient.createTokenRequest ⟨draws.nonce, draws.scalar⟩ challenge voprfKey
  else .error ⟨.unsupportedTokenType, "Unsupported token type"⟩

/-- The type of the finalization data selects the client, and the type of the key does not matter. -/
def finalize (response : TokenResponse) (finalizationData : FinalizationData) (issuerKey : PublicKey) :
    Result Token :=
  if finalizationData.tokenType = .blindRsa ∨ finalizationData.tokenType = .partiallyBlindRsa then do
    let rsaKey ← BlindRsaPublicKey.fromSpki issuerKey.data
    PublicClient.finalize response finalizationData rsaKey
  else if finalizationData.tokenType = .voprfP384Sha384 then do
    let voprfKey ← VoprfPublicKey.fromBytes issuerKey.data
    PrivateClient.finalize response finalizationData voprfKey
  else .error ⟨.unsupportedTokenType, "Unsupported token type"⟩

end PrivacyPass.Client
