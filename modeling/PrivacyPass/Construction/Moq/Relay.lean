import PrivacyPass.Construction.Moq.AuthorizationInfo
import PrivacyPass.Construction.TokenAuthenticator

/-
This file models the relay, which grants an action on a track for a token whose challenge allows it.
-/

namespace PrivacyPass.Moq

open Library Crypto

inductive MoqErrorCode where
  | tokenMissing
  | tokenInvalid
  | tokenExpired
  | tokenReplayed
  | scopeMismatch
  | issuerUnknown
  | tokenMalformed
  deriving DecidableEq, Repr

def actionName : Action → String
  | .clientSetup => "CLIENT_SETUP"
  | .serverSetup => "SERVER_SETUP"
  | .publishNamespace => "PUBLISH_NAMESPACE"
  | .subscribeNamespace => "SUBSCRIBE_NAMESPACE"
  | .subscribe => "SUBSCRIBE"
  | .requestUpdate => "REQUEST_UPDATE"
  | .publish => "PUBLISH"
  | .fetch => "FETCH"
  | .trackStatus => "TRACK_STATUS"

/-- A success carries the zero code, which is none of the errors. -/
structure MoqVerificationResult where
  valid : Bool := false
  errorCode : Option MoqErrorCode := some .tokenInvalid
  errorMessage : String := ""
  authInfo : Option AuthorizationInfo := none
  deriving DecidableEq

namespace MoqVerificationResult

def success (info : AuthorizationInfo) : MoqVerificationResult where
  valid := true
  errorCode := none
  authInfo := some info

def failure (code : MoqErrorCode) (message : String) : MoqVerificationResult where
  errorCode := some code
  errorMessage := message

end MoqVerificationResult

structure MoqRelay [CryptoBackend] where
  relayName : Bytes
  issuerName : Bytes
  authenticator : TokenAuthenticator

namespace MoqRelay

variable [CryptoBackend]

def config (relayName issuerName : Bytes) : TokenAuthenticatorConfig where
  issuerName := issuerName
  originNames := [relayName]
  redemptionWindow := 3600
  replayWindow := 3600
  requireRedemptionContext := false

def create (relayName issuerName : Bytes) : MoqRelay where
  relayName := relayName
  issuerName := issuerName
  authenticator := .create (config relayName issuerName)

def addTrustedIssuer (relay : MoqRelay) (key : BlindRsaPublicKey) : MoqRelay :=
  { relay with authenticator := relay.authenticator.addTrustedKey relay.issuerName key }

/-- The info becomes the first entry of the origin info, and the relay's name the second one. -/
def createChallenge (relay : MoqRelay) (requiredAuth : AuthorizationInfo) : Result TokenChallenge := do
  let encoded ← requiredAuth.encodeForOriginInfo
  relay.authenticator.createChallenge .blindRsa none [encoded]

/-- Only the first entry of the origin info is read. -/
def readAuthInfo (challenge : TokenChallenge) : Except MoqVerificationResult AuthorizationInfo :=
  match challenge.originInfo with
  | [] => .error (.failure .tokenMalformed "Missing authorization info")
  | first :: _ =>
      match AuthorizationInfo.decodeFromOriginInfo first with
      | .error _ => .error (.failure .tokenMalformed "Invalid authorization info")
      | .ok info => .ok info

def verifyToken (relay : MoqRelay) (token : Token) (challenge : TokenChallenge) :
    MoqVerificationResult :=
  let result := relay.authenticator.validate token challenge
  if result.valid = false then
    let code :=
      if result.errorCode = some .tokenReplayed then .tokenReplayed
      else if result.errorCode = some .issuerUnknown then .issuerUnknown
      else .tokenInvalid
    .failure code (result.errorMessage.getD "Validation failed")
  else
    match readAuthInfo challenge with
    | .error failure => failure
    | .ok info => .success info

/-- The token is spent before its scope is looked at, and an unknown issuer has no code here. -/
def verifyAndAuthorize (relay : MoqRelay) (now : Nat) (token : Token) (challenge : TokenChallenge)
    (action : Action) (ns : Namespace) (track : TrackName) : MoqVerificationResult × MoqRelay :=
  let redeemed := relay.authenticator.validateAndRedeem now token challenge
  let moved := { relay with authenticator := redeemed.2 }
  if redeemed.1.valid = false then
    let code := if redeemed.1.errorCode = some .tokenReplayed then .tokenReplayed else .tokenInvalid
    (.failure code (redeemed.1.errorMessage.getD "Validation failed"), moved)
  else
    match readAuthInfo challenge with
    | .error failure => (failure, moved)
    | .ok info =>
        if info.authorizes action ns track = false then
          (.failure .scopeMismatch ("Token does not authorize " ++ actionName action), moved)
        else (.success info, moved)

/-- The members of the class that a program may call. -/
inductive Call where
  | addTrustedIssuer (key : BlindRsaPublicKey)
  | createChallenge (requiredAuth : AuthorizationInfo)
  | verifyToken (token : Token) (challenge : TokenChallenge)
  | verifyAndAuthorize (token : Token) (challenge : TokenChallenge) (action : Action) (ns : Namespace)
      (track : TrackName)

inductive Answer where
  | done
  | challenge (value : Result TokenChallenge)
  | result (value : MoqVerificationResult)

/-- The clock is read in each redemption. -/
def machine : Machine MoqRelay (Nat × Call) Answer where
  step relay input :=
    match input.2 with
    | .addTrustedIssuer key => (.done, relay.addTrustedIssuer key)
    | .createChallenge requiredAuth => (.challenge (relay.createChallenge requiredAuth), relay)
    | .verifyToken token challenge => (.result (relay.verifyToken token challenge), relay)
    | .verifyAndAuthorize token challenge action ns track =>
        let outcome := relay.verifyAndAuthorize input.1 token challenge action ns track
        (.result outcome.1, outcome.2)

end MoqRelay
end PrivacyPass.Moq
