import PrivacyPass.Construction.Crypto.BlindRsa
import PrivacyPass.Construction.Crypto.Voprf
import PrivacyPass.Construction.Origin
import PrivacyPass.Construction.TokenResponse

/-
This file models the public and the private issuer.
-/

namespace PrivacyPass

open Library Crypto

/-- A failed issuance leaves an absent response in the batch. -/
def OptionalTokenResponse.ofResult : Result TokenResponse → OptionalTokenResponse
  | .ok response => ⟨true, some response⟩
  | .error _ => ⟨false, none⟩

/-- A key without an id leaves the id of zeros. -/
structure PublicIssuer where
  privateKey : BlindRsaPrivateKey
  publicKey : BlindRsaPublicKey := {}
  keyId : TokenKeyId := .zero 32
  truncatedKeyId : UInt8 := 0

namespace PublicIssuer

variable [RsaBackend]

def create (privateKey : BlindRsaPrivateKey) : PublicIssuer :=
  match privateKey.publicKey with
  | .error _ => { privateKey := privateKey }
  | .ok pub =>
      match pub.keyId with
      | .error _ => { privateKey := privateKey, publicKey := pub }
      | .ok keyId =>
          { privateKey := privateKey, publicKey := pub, keyId := keyId,
            truncatedKeyId := PrivacyPass.truncatedKeyId keyId }

/-- The response does not keep the difference between the two RSA types of the request. -/
def issue (issuer : PublicIssuer) (request : TokenRequest) : Result TokenResponse :=
  if request.tokenType ≠ .blindRsa ∧ request.tokenType ≠ .partiallyBlindRsa then
    .error ⟨.unsupportedTokenType, "PublicIssuer only supports Blind RSA"⟩
  else if request.truncatedTokenKeyId ≠ issuer.truncatedKeyId then
    .error ⟨.issuerUnknown, "Unknown key ID"⟩
  else do
    let blindSig ← issuer.privateKey.blindSign request.blindedMsg
    .ok (.createBlindRsa blindSig)

def issueBatch (issuer : PublicIssuer) (requests : BatchedTokenRequest) :
    Result BatchedTokenResponse :=
  .ok ⟨requests.requests.map fun request => .ofResult (issuer.issue request)⟩

end PublicIssuer

structure PrivateIssuer where
  privateKey : VoprfPrivateKey
  server : Option VoprfServer
  keyId : TokenKeyId
  truncatedKeyId : UInt8

namespace PrivateIssuer

variable [EcBackend]

/-- The server holds a copy of the key, and a failure leaves the ids as the memory has them. -/
def create (privateKey : VoprfPrivateKey) (memory : TokenKeyId × UInt8) : PrivateIssuer :=
  let ids :=
    match privateKey.publicKey.bind VoprfPublicKey.keyId with
    | .ok keyId => (keyId, PrivacyPass.truncatedKeyId keyId)
    | .error _ => memory
  { privateKey := privateKey
    server := (privateKey.toBytes.bind VoprfPrivateKey.fromBytes).toOption.map VoprfServer.mk
    keyId := ids.1
    truncatedKeyId := ids.2 }

/-- The proof of the evaluation needs the random draws. -/
def issue (issuer : PrivateIssuer) (draws : List Nat) (request : TokenRequest) :
    Result TokenResponse :=
  if request.tokenType ≠ .voprfP384Sha384 then
    .error ⟨.unsupportedTokenType, "PrivateIssuer only supports VOPRF"⟩
  else if request.truncatedTokenKeyId ≠ issuer.truncatedKeyId then
    .error ⟨.issuerUnknown, "Unknown key ID"⟩
  else
    match issuer.server with
    | none => .error ⟨.cryptoError, "VOPRF server not initialized"⟩
    | some server => do
        let evaluation ← server.blindEvaluate draws request.blindedMsg
        .ok (.createVoprf evaluation.evaluatedElement evaluation.proof)

/-- Each request of the batch has its own draws. -/
def issueBatch (issuer : PrivateIssuer) (draws : Nat → List Nat) (requests : BatchedTokenRequest) :
    Result BatchedTokenResponse :=
  .ok ⟨requests.requests.mapIdx fun index request => .ofResult (issuer.issue (draws index) request)⟩

end PrivateIssuer
end PrivacyPass
