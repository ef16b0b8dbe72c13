import PrivacyPass.Construction.Origin

/-
This file models the token authenticator: its trusted keys, its checks and its redemption cache.
-/

namespace PrivacyPass

open Library Crypto

def defaultMaxAuthenticatorCacheSize : Nat := 100000

structure ValidationResult where
  valid : Bool := false
  errorCode : Option ErrorCode := none
  errorMessage : Option String := none
  challengeDigest : Option ChallengeDigest := none
  deriving DecidableEq

namespace ValidationResult

def success (digest : ChallengeDigest) : ValidationResult where
  valid := true
  challengeDigest := some digest

/-- An empty message counts as no message. -/
def failure (code : ErrorCode) (message : String) : ValidationResult where
  errorCode := some code
  errorMessage := if message.isEmpty then none else some message

end ValidationResult

structure TokenAuthenticatorConfig where
  issuerName : Bytes
  originNames : List Bytes
  redemptionWindow : Int := 3600
  replayWindow : Int := 3600
  requireRedemptionContext : Bool := true
  maxReplayCacheSize : Nat := 100000
  deriving DecidableEq

/-- The clock counts nanoseconds, and the configuration counts seconds. -/
def nanosPerSecond : Int := 1000000000

/-- Times and durations are signed counts of 64 bits, and their arithmetic wraps around. -/
def wrapCount (count : Int) : Int := count.bmod (2 ^ 64)

structure NonceEntry where
  nonce : Nonce
  timestamp : Nat
  deriving DecidableEq

/-- The set answers the lookups, and the queue keeps the nonces in the order of their redemption. -/
structure NonceCache where
  redeemedNonces : Finset Nonce := ∅
  nonceEntries : List NonceEntry := []

namespace NonceCache

/-- Both loops of the cache drop the front entry while there is one and the condition holds. -/
def dropEntries (condition : NonceEntry → Finset Nonce → Bool) :
    List NonceEntry → Finset Nonce → NonceCache
  | [], redeemed => ⟨redeemed, []⟩
  | front :: rest, redeemed =>
      if condition front redeemed then dropEntries condition rest (redeemed.erase front.nonce)
      else ⟨redeemed, front :: rest⟩

/-- The window becomes nanoseconds before it is taken from the time. -/
def cutoff (now : Nat) (replayWindow : Int) : Int :=
  wrapCount (now - wrapCount (replayWindow * nanosPerSecond))

def dropExpired (cutoff : Int) (cache : NonceCache) : NonceCache :=
  dropEntries (fun front _ => (front.timestamp : Int) < cutoff) cache.nonceEntries
    cache.redeemedNonces

def dropOldest (maxSize : Nat) (cache : NonceCache) : NonceCache :=
  dropEntries (fun _ redeemed => redeemed.card ≥ maxSize) cache.nonceEntries cache.redeemedNonces

def checkAndAddNonce (replayWindow : Int) (maxSize now : Nat) (nonce : Nonce) (cache : NonceCache) :
    Bool × NonceCache :=
  let pruned := dropOldest maxSize (dropExpired (cutoff now replayWindow) cache)
  if nonce ∈ pruned.redeemedNonces then (false, pruned)
  else (true, ⟨insert nonce pruned.redeemedNonces, pruned.nonceEntries ++ [⟨nonce, now⟩]⟩)

end NonceCache

/-- The trusted keys are kept by issuer name here and by key id inside the origin. -/
structure TokenAuthenticator [CryptoBackend] where
  config : TokenAuthenticatorConfig
  origin : Origin
  rsaKeys : AList fun _ : Bytes => List BlindRsaPublicKey := ∅
  voprfKeys : AList fun _ : Bytes => List VoprfPublicKey := ∅
  cache : NonceCache := {}

namespace TokenAuthenticator

variable [CryptoBackend]

/-- The origin's own cache keeps its default size. -/
def create (config : TokenAuthenticatorConfig) : TokenAuthenticator where
  config := config
  origin := .create {
    issuerName := config.issuerName
    originNames := config.originNames
    redemptionWindow := config.redemptionWindow
    requireRedemptionContext := config.requireRedemptionContext }

/-- A zero limit stands for the default limit. -/
def maxSize (config : TokenAuthenticatorConfig) : Nat :=
  if config.maxReplayCacheSize > 0 then config.maxReplayCacheSize
  else defaultMaxAuthenticatorCacheSize

def checkAndAddNonce (authenticator : TokenAuthenticator) (now : Nat) (nonce : Nonce) :
    Bool × TokenAuthenticator :=
  let outcome := authenticator.cache.checkAndAddNonce authenticator.config.replayWindow
    (maxSize authenticator.config) now nonce
  (outcome.1, { authenticator with cache := outcome.2 })

def addTrustedKey (authenticator : TokenAuthenticator) (issuerName : Bytes)
    (key : BlindRsaPublicKey) : TokenAuthenticator :=
  { authenticator with
    origin :=
      match Origin.copyRsaKey key with
      | .ok copy => authenticator.origin.addBlindRsaKey copy
      | .error _ => authenticator.origin
    rsaKeys := authenticator.rsaKeys.insert issuerName
      ((authenticator.rsaKeys.lookup issuerName).getD [] ++ [key]) }

def addTrustedVoprfKey (authenticator : TokenAuthenticator) (issuerName : Bytes)
    (key : VoprfPublicKey) : TokenAuthenticator :=
  { authenticator with
    origin :=
      match Origin.copyVoprfKey key with
      | .ok copy => authenticator.origin.addVoprfKey copy
      | .error _ => authenticator.origin
    voprfKeys := authenticator.voprfKeys.insert issuerName
      ((authenticator.voprfKeys.lookup issuerName).getD [] ++ [key]) }

/-- The origin keeps its copies of the removed keys. -/
def removeTrustedIssuer (authenticator : TokenAuthenticator) (issuerName : Bytes) :
    TokenAuthenticator :=
  { authenticator with
    rsaKeys := authenticator.rsaKeys.erase issuerName
    voprfKeys := authenticator.voprfKeys.erase issuerName }

def isTrusted (authenticator : TokenAuthenticator) (issuerName : Bytes) : Bool :=
  (authenticator.rsaKeys.lookup issuerName).isSome ||
    (authenticator.voprfKeys.lookup issuerName).isSome

def createChallenge (authenticator : TokenAuthenticator) (type : TokenType)
    (redemptionContext : Option ChallengeDigest) (additionalOriginInfo : List Bytes) :
    Result TokenChallenge :=
  .ok (.create type authenticator.config.issuerName redemptionContext
    (additionalOriginInfo ++ authenticator.config.originNames))

/-- Both kinds of validation make these checks in this order. -/
def check (authenticator : TokenAuthenticator) (token : Token) (expectedChallenge : TokenChallenge) :
    ValidationResult :=
  match token.validate with
  | .error error => .failure error.code error.message
  | .ok () =>
      match expectedChallenge.digest.1 with
      | .error _ => .failure .cryptoError "Failed to compute challenge digest"
      | .ok expectedDigest =>
          if constantTimeEqual token.challengeDigest.val expectedDigest.val = false then
            .failure .invalidChallenge "Challenge digest mismatch"
          else
            match authenticator.origin.verify token expectedChallenge with
            | .error error => .failure error.code error.message
            | .ok false => .failure .tokenInvalid "Signature verification failed"
            | .ok true => .success expectedDigest

def validate (authenticator : TokenAuthenticator) (token : Token)
    (expectedChallenge : TokenChallenge) : ValidationResult :=
  authenticator.check token expectedChallenge

/-- The nonce is looked up before the checks and recorded after they have passed. -/
def validateAndRedeem (authenticator : TokenAuthenticator) (now : Nat) (token : Token)
    (expectedChallenge : TokenChallenge) : ValidationResult × TokenAuthenticator :=
  if token.nonce ∈ authenticator.cache.redeemedNonces then
    (.failure .tokenReplayed "Token has already been redeemed", authenticator)
  else
    let checked := authenticator.check token expectedChallenge
    if checked.valid = false then (checked, authenticator)
    else
      let added := authenticator.checkAndAddNonce now token.nonce
      if added.1 = false then
        (.failure .tokenReplayed "Token has already been redeemed", added.2)
      else (checked, added.2)

/-- These are the return statements of the redemption in their order. -/
inductive RedeemExit where
  | replayed
  | malformed
  | noDigest
  | digestMismatch
  | unverified
  | badSignature
  | replayedLate
  | redeemed
  deriving DecidableEq

/-- This is the redemption with its own copy of the checks and with the exit that it takes. -/
def redeemSequence (authenticator : TokenAuthenticator) (now : Nat) (token : Token)
    (expectedChallenge : TokenChallenge) : RedeemExit × ValidationResult × TokenAuthenticator :=
  if token.nonce ∈ authenticator.cache.redeemedNonces then
    (.replayed, .failure .tokenReplayed "Token has already been redeemed", authenticator)
  else
    match token.validate with
    | .error error => (.malformed, .failure error.code error.message, authenticator)
    | .ok () =>
        match expectedChallenge.digest.1 with
        | .error _ => (.noDigest, .failure .cryptoError "Failed to compute challenge digest", authenticator)
        | .ok expectedDigest =>
            if constantTimeEqual token.challengeDigest.val expectedDigest.val = false then
              (.digestMismatch, .failure .invalidChallenge "Challenge digest mismatch", authenticator)
            else
              match authenticator.origin.verify token expectedChallenge with
              | .error error => (.unverified, .failure error.code error.message, authenticator)
              | .ok false =>
                  (.badSignature, .failure .tokenInvalid "Signature verification failed", authenticator)
              | .ok true =>
                  let added := authenticator.checkAndAddNonce now token.nonce
                  if added.1 = false then
                    (.replayedLate, .failure .tokenReplayed "Token has already been redeemed", added.2)
                  else (.redeemed, .success expectedDigest, added.2)

def wouldBeReplay (authenticator : TokenAuthenticator) (token : Token) : Bool :=
  decide (token.nonce ∈ authenticator.cache.redeemedNonces)

def markRedeemed (authenticator : TokenAuthenticator) (now : Nat) (token : Token) :
    TokenAuthenticator := (authenticator.checkAndAddNonce now token.nonce).2

def redemptionCacheSize (authenticator : TokenAuthenticator) : Nat :=
  authenticator.cache.redeemedNonces.card

def pruneRedemptionCache (authenticator : TokenAuthenticator) (now : Nat) : TokenAuthenticator :=
  { authenticator with
    cache := authenticator.cache.dropExpired
      (NonceCache.cutoff now authenticator.config.replayWindow) }

/-- The members of the class that a program may call. -/
inductive Call [CryptoBackend] where
  | addTrustedKey (issuerName : Bytes) (key : BlindRsaPublicKey)
  | addTrustedVoprfKey (issuerName : Bytes) (key : VoprfPublicKey)
  | removeTrustedIssuer (issuerName : Bytes)
  | isTrusted (issuerName : Bytes)
  | validate (token : Token) (challenge : TokenChallenge)
  | validateAndRedeem (token : Token) (challenge : TokenChallenge)
  | wouldBeReplay (token : Token)
  | markRedeemed (token : Token)
  | redemptionCacheSize
  | pruneRedemptionCache

inductive Answer where
  | done
  | flag (value : Bool)
  | count (value : Nat)
  | result (value : ValidationResult)
  deriving DecidableEq

/-- The clock is read at most once in each call. -/
def machine : Machine TokenAuthenticator (Nat × Call) Answer where
  step authenticator input :=
    match input.2 with
    | .addTrustedKey issuerName key => (.done, authenticator.addTrustedKey issuerName key)
    | .addTrustedVoprfKey issuerName key => (.done, authenticator.addTrustedVoprfKey issuerName key)
    | .removeTrustedIssuer issuerName => (.done, authenticator.removeTrustedIssuer issuerName)
    | .isTrusted issuerName => (.flag (authenticator.isTrusted issuerName), authenticator)
    | .validate token challenge => (.result (authenticator.validate token challenge), authenticator)
    | .validateAndRedeem token challenge =>
        let outcome := authenticator.validateAndRedeem input.1 token challenge
        (.result outcome.1, outcome.2)
    | .wouldBeReplay token => (.flag (authenticator.wouldBeReplay token), authenticator)
    | .markRedeemed token => (.done, authenticator.markRedeemed input.1 token)
    | .redemptionCacheSize => (.count authenticator.redemptionCacheSize, authenticator)
    | .pruneRedemptionCache => (.done, authenticator.pruneRedemptionCache input.1)

end TokenAuthenticator
end PrivacyPass
