import PrivacyPass.Construction.Http.AuthScheme
import PrivacyPass.Construction.UnifiedClient
import PrivacyPass.Library.Machine

/-
This file models one issuer, one origin and any number of clients over a network that may lose,
repeat, reorder and forge messages.
-/

namespace PrivacyPass

open Library Crypto Http

/-- The origin keeps its state, and each client keeps the finalization data of its last request until
it finalizes. -/
structure Deployment (κ : Type) where
  origin : PublicOrigin
  waiting : κ → Option FinalizationData := fun _ => none

namespace Deployment

variable [IssuanceBackend] {κ : Type}

/-- A client answers the header of a challenge with a request. -/
def answerChallenge (key : PublicKey) (draws : ProviderDraws) (wwwAuthenticate : Bytes) :
    Result (Bytes × FinalizationData) := do
  let header ← ChallengeHeader.parse wwwAuthenticate
  let challenge ← header.decodeChallenge
  let created ← Client.createTokenRequest draws challenge key
  let bytes ← created.request.serialize
  .ok (bytes, created.finalizationData)

/-- The issuer answers a request with a response. -/
def answerRequest (issuer : PublicIssuer) (bytes : Bytes) : Result Bytes := do
  let request ← TokenRequest.deserialize bytes
  let response ← issuer.issue request
  response.serialize

/-- A client answers a response with the header of its token. -/
def answerResponse (key : PublicKey) (finalizationData : FinalizationData) (bytes : Bytes) :
    Result Bytes := do
  let response ← TokenResponse.deserialize finalizationData.tokenType bytes
  let token ← Client.finalize response finalizationData key
  buildAuthorization token

/-- The network decides what is delivered, and the origin serves other callers too. -/
inductive Delivery (κ : Type) where
  | challenge (client : κ) (draws : ProviderDraws) (wwwAuthenticate : Bytes)
  | request (bytes : Bytes)
  | response (client : κ) (bytes : Bytes)
  | authorization (bytes : Bytes) (challenge : TokenChallenge)
  | origin (call : PublicOrigin.Call)

inductive Answer where
  | idle
  | sent (message : Result Bytes)
  | origin (answer : PublicOrigin.Answer)

/-- The issuer and the keys of the clients stay the same. -/
def machine [DecidableEq κ] (issuer : PublicIssuer) (clientKey : κ → PublicKey) :
    Machine (Deployment κ) (Nat × Delivery κ) Answer where
  step deployment input :=
    match input.2 with
    | .challenge client draws wwwAuthenticate =>
        match answerChallenge (clientKey client) draws wwwAuthenticate with
        | .error error => (.sent (.error error), deployment)
        | .ok (bytes, finalizationData) =>
            (.sent (.ok bytes), { deployment with
              waiting := Function.update deployment.waiting client (some finalizationData) })
    | .request bytes => (.sent (answerRequest issuer bytes), deployment)
    | .response client bytes =>
        match deployment.waiting client with
        | none => (.idle, deployment)
        | some finalizationData =>
            -- the finalization takes the data over, whether it then succeeds or not
            let kept :=
              match TokenResponse.deserialize finalizationData.tokenType bytes with
              | .error _ => some finalizationData
              | .ok _ => none
            (.sent (answerResponse (clientKey client) finalizationData bytes), { deployment with
              waiting := Function.update deployment.waiting client kept })
    | .authorization bytes challenge =>
        match parseAuthorization bytes with
        | .error error => (.origin (.result (.error error)), deployment)
        | .ok token =>
            let outcome := deployment.origin.verifyAndRedeem input.1 token challenge
            (.origin (.result outcome.1), { deployment with origin := outcome.2 })
    | .origin call =>
        let outcome := PublicOrigin.machine.step deployment.origin (input.1, call)
        (.origin outcome.1, { deployment with origin := outcome.2 })

/-- The crypto library draws salts of the configured length. -/
def salted (_history : List ((Nat × Delivery κ) × Answer)) (input : Nat × Delivery κ) : Prop :=
  match input.2 with
  | .challenge _ draws _ => draws.salt.length = saltLength
  | _ => True

end Deployment
end PrivacyPass
