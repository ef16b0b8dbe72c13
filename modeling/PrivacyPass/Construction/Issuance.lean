import PrivacyPass.Construction.Client
import PrivacyPass.Construction.Crypto.VoprfProtocol
import PrivacyPass.Construction.Issuer

/-
This file models one session of a client with its issuer, in both key systems.
-/

namespace PrivacyPass

open Library Crypto

/-- A client brings everything but the blinding factor into its session. -/
structure Errand where
  challenge : TokenChallenge
  nonce : Nonce
  salt : Bytes

/-- The issuer sees the two messages, and the client keeps the token. -/
def Errand.session [RsaBackend] (errand : Errand) (issuer : PublicIssuer) (key : BlindRsaPublicKey)
    (factors : List Nat) : Result ((Bytes × Bytes) × Token) := do
  let created ← PublicClient.createTokenRequest ⟨some errand.nonce, errand.salt, factors⟩
    errand.challenge key
  let requestBytes ← created.request.serialize
  let request ← TokenRequest.deserialize requestBytes
  let response ← issuer.issue request
  let responseBytes ← response.serialize
  let response ← TokenResponse.deserialize created.request.tokenType responseBytes
  let token ← PublicClient.finalize response created.finalizationData key
  .ok ((requestBytes, responseBytes), token)

/-- The server sees the blinded element and its own evaluation, and the client keeps the output. -/
def Crypto.VoprfClient.session [CurveBackend] (client : VoprfClient) (server : VoprfServer)
    (input : Bytes) (draw : Option Nat) (draws : List Nat) :
    Result ((Bytes × VoprfEvaluation) × Bytes) := do
  let data ← client.blind draw input
  let evaluation ← server.blindEvaluate draws data.blindedElement
  let output ← client.finalize data evaluation
  .ok ((data.blindedElement, evaluation), output)

end PrivacyPass
