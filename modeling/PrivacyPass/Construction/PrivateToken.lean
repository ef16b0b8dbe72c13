import PrivacyPass.Construction.Crypto.BlindRsa
import PrivacyPass.Construction.Crypto.VoprfProtocol
import PrivacyPass.Construction.Client
import PrivacyPass.Construction.Issuer

/-
This file models the client and the verification of privately verifiable tokens. The imports are in
the order in which the backends extend one another.
-/

namespace PrivacyPass

open Library Crypto

variable [CurveBackend]

/-- Only the issuer can check the authenticator of the token. -/
def PrivateIssuer.verify (issuer : PrivateIssuer) (token : Token) : Result Bool :=
  if token.tokenType ≠ .voprfP384Sha384 then
    .error ⟨.unsupportedTokenType, "Can only verify VOPRF tokens"⟩
  else do
    let authInputBytes ← token.authenticatorInput.serialize
    match issuer.server with
    | none => .error ⟨.cryptoError, "VOPRF server not initialized"⟩
    | some server => server.verifyFinalize authInputBytes token.authenticator

/-- A request takes a nonce and one blinding scalar. -/
structure PrivateRequestDraws where
  nonce : Option Nonce
  scalar : Option Nat

namespace PrivateClient

/-- The request takes the blinded element out of the finalization data. -/
def createTokenRequest (draws : PrivateRequestDraws) (challenge : TokenChallenge)
    (issuerKey : VoprfPublicKey) : Result TokenRequestResult := do
  let nonce ← randomNonce draws.nonce
  let digest ← challenge.digest.1
  let keyId ← issuerKey.keyId
  let authInput : AuthenticatorInput := ⟨challenge.tokenType, nonce, digest, keyId⟩
  let authInputBytes ← authInput.serialize
  let keyBytes ← issuerKey.toBytes
  let keyCopy ← VoprfPublicKey.fromBytes keyBytes
  let blind ← (⟨keyCopy⟩ : VoprfClient).blind draws.scalar authInputBytes
  .ok
    { request := .create challenge.tokenType (truncatedKeyId keyId) blind.blindedElement
      finalizationData :=
        { tokenType := challenge.tokenType
          nonce := nonce
          challengeDigest := digest
          tokenKeyId := keyId
          data := .voprf { blind with blindedElement := [] } } }

def finalize (response : TokenResponse) (finalizationData : FinalizationData)
    (issuerKey : VoprfPublicKey) : Result Token :=
  match response.asVoprf with
  | none => .error ⟨.tokenMalformed, "Expected VOPRF response"⟩
  | some voprfResponse =>
      match finalizationData.data with
      | .blindRsa _ => .error ⟨.tokenMalformed, "Invalid finalization data"⟩
      | .voprf voprfData => do
          let keyBytes ← issuerKey.toBytes
          let keyCopy ← VoprfPublicKey.fromBytes keyBytes
          let evaluation : VoprfEvaluation := ⟨voprfResponse.evaluateMsg, voprfResponse.evaluateProof⟩
          let authenticator ← (⟨keyCopy⟩ : VoprfClient).finalize voprfData evaluation
          .ok (.create finalizationData.tokenType finalizationData.nonce
            finalizationData.challengeDigest finalizationData.tokenKeyId authenticator)

end PrivateClient
end PrivacyPass
