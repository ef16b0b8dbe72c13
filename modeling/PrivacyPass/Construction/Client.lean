import PrivacyPass.Construction.Origin
import PrivacyPass.Construction.TokenRequest
import PrivacyPass.Construction.TokenResponse

/-
This file models the client of publicly verifiable tokens.
-/

namespace PrivacyPass

open Library Crypto

/-- The content of the finalization data belongs to one of the two key systems. -/
inductive FinalizationContent where
  | blindRsa (data : BlindingData)
  | voprf (data : VoprfFinalizationData)
  deriving DecidableEq

structure FinalizationData where
  tokenType : TokenType
  nonce : Nonce
  challengeDigest : ChallengeDigest
  tokenKeyId : TokenKeyId
  data : FinalizationContent
  deriving DecidableEq

structure TokenRequestResult where
  request : TokenRequest
  finalizationData : FinalizationData
  deriving DecidableEq

/-- A request takes a nonce, the salt of its encoding and the candidates for its blinding factor. -/
structure RequestDraws where
  nonce : Option Nonce
  salt : Bytes
  factors : List Nat

def randomNonce (draw : Option Nonce) : Result Nonce :=
  match draw with
  | some nonce => .ok nonce
  | none => .error ⟨.randomGenerationFailed, "Failed to generate random nonce"⟩

namespace PublicClient

variable [RsaBackend]

/-- The request takes the blinded message out of the blinding data. -/
def createTokenRequest (draws : RequestDraws) (challenge : TokenChallenge)
    (issuerKey : BlindRsaPublicKey) : Result TokenRequestResult := do
  let nonce ← randomNonce draws.nonce
  let digest ← challenge.digest.1
  let keyId ← issuerKey.keyId
  let authInput : AuthenticatorInput := ⟨challenge.tokenType, nonce, digest, keyId⟩
  let authInputBytes ← authInput.serialize
  let blinding ← issuerKey.blind authInputBytes draws.salt draws.factors
  let request := TokenRequest.create challenge.tokenType (truncatedKeyId keyId) blinding.blindedMsg
  .ok
    { request := request
      finalizationData :=
        { tokenType := challenge.tokenType
          nonce := nonce
          challengeDigest := digest
          tokenKeyId := keyId
          data := .blindRsa { blinding with blindedMsg := [] } } }

def finalize (response : TokenResponse) (finalizationData : FinalizationData)
    (issuerKey : BlindRsaPublicKey) : Result Token :=
  match response.asBlindRsa with
  | none => .error ⟨.tokenMalformed, "Expected Blind RSA response"⟩
  | some rsaResponse =>
      match finalizationData.data with
      | .voprf _ => .error ⟨.tokenMalformed, "Invalid finalization data"⟩
      | .blindRsa blindingData => do
          let authInput : AuthenticatorInput :=
            ⟨finalizationData.tokenType, finalizationData.nonce, finalizationData.challengeDigest,
              finalizationData.tokenKeyId⟩
          let authInputBytes ← authInput.serialize
          let authenticator ←
            (issuerKey.finalize rsaResponse.blindSig blindingData authInputBytes).1
          .ok (.create finalizationData.tokenType finalizationData.nonce
            finalizationData.challengeDigest finalizationData.tokenKeyId authenticator)

end PublicClient
end PrivacyPass
