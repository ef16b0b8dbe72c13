import PrivacyPass.Construction.Crypto.BlindRsa
import PrivacyPass.Construction.Crypto.Voprf
import PrivacyPass.Construction.ReplayCache
import PrivacyPass.Construction.Token
import PrivacyPass.Construction.TokenChallenge

/-
This file models the origins: their keys, their replay caches and the checks of a token.
-/

namespace PrivacyPass

open Library Crypto

/-- Both key systems work over one hash implementation. -/
class CryptoBackend extends RsaBackend, EcBackend

structure OriginConfig where
  issuerName : Bytes
  originNames : List Bytes
  redemptionWindow : Int := 3600
  requireRedemptionContext : Bool := true
  maxReplayCacheSize : Nat := defaultMaxReplayCacheSize
  deriving DecidableEq

/-- The constructor converts the window to an unsigned 64-bit number. -/
def ReplayCache.create (window : Int) (maxSize : Nat) : ReplayCache where
  windowSeconds := (window % 18446744073709551616).toNat
  maxSize := maxSize

/-- A missing context is drawn at random when the configuration asks for one. -/
def redemptionContextOr (required : Bool) (given : Option ChallengeDigest)
    (draw : Option ChallengeDigest) : Result (Option ChallengeDigest) :=
  if required = true ∧ given = none then
    match draw with
    | some context => .ok (some context)
    | none => .error ⟨.randomGenerationFailed, "Failed to generate random bytes"⟩
  else .ok given

/-- Each index of the full-id map points into the key vector. -/
structure PublicOrigin where
  config : OriginConfig
  issuerKeys : List BlindRsaPublicKey := []
  keyIndicesByTruncatedId : AList fun _ : UInt8 => List Nat := ∅
  keyIndexByFullId : AList fun _ : TokenKeyId => Nat := ∅
  replayCache : ReplayCache
  inside : ∀ id index, keyIndexByFullId.lookup id = some index → index < issuerKeys.length := by simp

/-- The last byte of a key id is its truncated form. -/
def truncatedKeyId (keyId : TokenKeyId) : UInt8 := keyId.val.getLast (by
  intro empty
  have length := keyId.property
  rw [empty] at length
  cases length)

namespace PublicOrigin

variable [RsaBackend]

def createEmpty (config : OriginConfig) : PublicOrigin where
  config := config
  replayCache := .create config.redemptionWindow config.maxReplayCacheSize

/-- A key without an id is dropped. -/
def addIssuerKey (origin : PublicOrigin) (key : BlindRsaPublicKey) : PublicOrigin :=
  match key.keyId with
  | .error _ => origin
  | .ok keyId =>
      let index := origin.issuerKeys.length
      let truncated := truncatedKeyId keyId
      { origin with
        keyIndicesByTruncatedId := origin.keyIndicesByTruncatedId.insert truncated
          ((origin.keyIndicesByTruncatedId.lookup truncated).getD [] ++ [index])
        keyIndexByFullId := origin.keyIndexByFullId.insert keyId index
        issuerKeys := origin.issuerKeys ++ [key]
        inside := by
          intro id other found
          rw [List.length_append, List.length_singleton]
          by_cases same : id = keyId
          · rw [same, AList.lookup_insert] at found
            cases found
            exact Nat.lt_succ_self _
          · rw [AList.lookup_insert_ne same] at found
            exact Nat.lt_succ_of_lt (origin.inside id other found) }

/-- The key stays in the vector, and only its map entries go. -/
def removeIssuerKey (origin : PublicOrigin) (keyId : TokenKeyId) : PublicOrigin :=
  match origin.keyIndexByFullId.lookup keyId with
  | none => origin
  | some index =>
      let truncated := truncatedKeyId keyId
      let bucket := ((origin.keyIndicesByTruncatedId.lookup truncated).getD []).filter (· ≠ index)
      { origin with
        keyIndexByFullId := origin.keyIndexByFullId.erase keyId
        keyIndicesByTruncatedId :=
          if bucket.isEmpty then origin.keyIndicesByTruncatedId.erase truncated
          else origin.keyIndicesByTruncatedId.insert truncated bucket
        inside := by
          intro id other found
          by_cases same : id = keyId
          · rw [same, AList.lookup_erase] at found
            cases found
          · rw [AList.lookup_erase_ne same] at found
            exact origin.inside id other found }

def create (config : OriginConfig) (issuerKeys : List BlindRsaPublicKey) : PublicOrigin :=
  issuerKeys.foldl addIssuerKey (createEmpty config)

def createChallenge (origin : PublicOrigin) (context draw : Option ChallengeDigest) :
    Result TokenChallenge := do
  let context ← redemptionContextOr origin.config.requireRedemptionContext context draw
  .ok (.create .blindRsa origin.config.issuerName context origin.config.originNames)

def verify (origin : PublicOrigin) (token : Token) (expectedChallenge : TokenChallenge) :
    Result Bool := do
  token.validate
  if token.tokenType ≠ .blindRsa ∧ token.tokenType ≠ .partiallyBlindRsa then
    .error ⟨.unsupportedTokenType, "PublicOrigin only supports Blind RSA tokens"⟩
  else do
    let expectedDigest ← expectedChallenge.digest.1
    if constantTimeEqual token.challengeDigest.val expectedDigest.val = false then
      .error ⟨.invalidChallenge, "Challenge digest mismatch"⟩
    else
      match found : origin.keyIndexByFullId.lookup token.tokenKeyId with
      | none => .error ⟨.issuerUnknown, "Unknown issuer key"⟩
      | some index => do
          let key := origin.issuerKeys.get ⟨index, origin.inside _ _ found⟩
          let authInputBytes ← token.authenticatorInput.serialize
          key.verify authInputBytes token.authenticator

/-- The nonce is reserved before the token is verified. -/
def verifyAndRedeem (origin : PublicOrigin) (tick : Nat) (token : Token)
    (expectedChallenge : TokenChallenge) : Result Bool × PublicOrigin :=
  let reserved := origin.replayCache.checkAndAdd tick token.nonce
  let moved := { origin with replayCache := reserved.2 }
  if reserved.1 = false then
    (.error ⟨.tokenReplayed, "Token has already been redeemed"⟩, moved)
  else (moved.verify token expectedChallenge, moved)

/-- These calls read or change the keys of the origin. -/
inductive Call where
  | addIssuerKey (key : BlindRsaPublicKey)
  | removeIssuerKey (keyId : TokenKeyId)
  | verify (token : Token) (expectedChallenge : TokenChallenge)
  | verifyAndRedeem (token : Token) (expectedChallenge : TokenChallenge)

inductive Answer where
  | done
  | result (value : Result Bool)

def machine : Machine PublicOrigin (Nat × Call) Answer where
  step origin input :=
    match input.2 with
    | .addIssuerKey key => (.done, origin.addIssuerKey key)
    | .removeIssuerKey keyId => (.done, origin.removeIssuerKey keyId)
    | .verify token challenge => (.result (origin.verify token challenge), origin)
    | .verifyAndRedeem token challenge =>
        let outcome := origin.verifyAndRedeem input.1 token challenge
        (.result outcome.1, outcome.2)

end PublicOrigin

structure PrivateOrigin [EcBackend] where
  config : OriginConfig
  issuerKeys : List VoprfPublicKey := []
  replayCache : ReplayCache

namespace PrivateOrigin

variable [EcBackend]

def create (config : OriginConfig) (issuerKeys : List VoprfPublicKey) : PrivateOrigin where
  config := config
  issuerKeys := issuerKeys
  replayCache := .create config.redemptionWindow config.maxReplayCacheSize

def createChallenge (origin : PrivateOrigin) (context draw : Option ChallengeDigest) :
    Result TokenChallenge := do
  let context ← redemptionContextOr origin.config.requireRedemptionContext context draw
  .ok (.create .voprfP384Sha384 origin.config.issuerName context origin.config.originNames)

def validateStructure (_origin : PrivateOrigin) (token : Token)
    (expectedChallenge : TokenChallenge) : Result Bool := do
  token.validate
  if token.tokenType ≠ .voprfP384Sha384 then
    .error ⟨.unsupportedTokenType, "PrivateOrigin only supports VOPRF tokens"⟩
  else do
    let expectedDigest ← expectedChallenge.digest.1
    if constantTimeEqual token.challengeDigest.val expectedDigest.val = false then
      .error ⟨.invalidChallenge, "Challenge digest mismatch"⟩
    else .ok true

def wouldBeReplay (origin : PrivateOrigin) (token : Token) : Bool :=
  origin.replayCache.contains token.nonce

def markRedeemed (origin : PrivateOrigin) (tick : Nat) (token : Token) : PrivateOrigin :=
  { origin with replayCache := (origin.replayCache.checkAndAdd tick token.nonce).2 }

end PrivateOrigin

/-- The unified origin keeps its own list of keys beside the two origins that it builds from it. -/
structure Origin [CryptoBackend] where
  config : OriginConfig
  publicOrigin : Option PublicOrigin := none
  privateOrigin : Option PrivateOrigin := none
  rsaKeys : List BlindRsaPublicKey := []
  voprfKeys : List VoprfPublicKey := []
  replayCache : ReplayCache

namespace Origin

variable [CryptoBackend]

def create (config : OriginConfig) : Origin where
  config := config
  replayCache := .create config.redemptionWindow config.maxReplayCacheSize

/-- A copy of a key goes through its encoding. -/
def copyRsaKey (key : BlindRsaPublicKey) : Result BlindRsaPublicKey := do
  let spki ← key.toSpki
  BlindRsaPublicKey.fromSpki spki

def copyVoprfKey (key : VoprfPublicKey) : Result VoprfPublicKey := do
  let bytes ← key.toBytes
  VoprfPublicKey.fromBytes bytes

/-- The first copied key creates the public origin, and each later one is added to it. -/
def addBlindRsaKey (origin : Origin) (key : BlindRsaPublicKey) : Origin :=
  let kept := { origin with rsaKeys := origin.rsaKeys ++ [key] }
  match copyRsaKey key with
  | .error _ => kept
  | .ok copy =>
      match origin.publicOrigin with
      | none => { kept with publicOrigin := some (.create origin.config [copy]) }
      | some publicOrigin => { kept with publicOrigin := some (publicOrigin.addIssuerKey copy) }

/-- The private origin is rebuilt from the keys that copy. -/
def addVoprfKey (origin : Origin) (key : VoprfPublicKey) : Origin :=
  let keys := origin.voprfKeys ++ [key]
  { origin with
    voprfKeys := keys
    privateOrigin := some (.create origin.config (keys.filterMap fun key => (copyVoprfKey key).toOption)) }

def createChallenge (origin : Origin) (type : TokenType) (context draw : Option ChallengeDigest) :
    Result TokenChallenge := do
  let context ← redemptionContextOr origin.config.requireRedemptionContext context draw
  .ok (.create type origin.config.issuerName context origin.config.originNames)

def verify (origin : Origin) (token : Token) (expectedChallenge : TokenChallenge) : Result Bool :=
  if token.tokenType = .blindRsa ∨ token.tokenType = .partiallyBlindRsa then
    match origin.publicOrigin with
    | some publicOrigin => publicOrigin.verify token expectedChallenge
    | none => .error ⟨.issuerUnknown, "No RSA keys configured"⟩
  else if token.tokenType = .voprfP384Sha384 then
    .error ⟨.unsupportedTokenType, "VOPRF tokens require issuer private-key verification"⟩
  else .error ⟨.unsupportedTokenType, "Unsupported token type"⟩

def verifyAndRedeem (origin : Origin) (tick : Nat) (token : Token)
    (expectedChallenge : TokenChallenge) : Result Bool × Origin :=
  let reserved := origin.replayCache.checkAndAdd tick token.nonce
  let moved := { origin with replayCache := reserved.2 }
  if reserved.1 = false then
    (.error ⟨.tokenReplayed, "Token has already been redeemed"⟩, moved)
  else (moved.verify token expectedChallenge, moved)

/-- These calls add keys to the unified origin or present tokens to it. -/
inductive Call where
  | addBlindRsaKey (key : BlindRsaPublicKey)
  | addVoprfKey (key : VoprfPublicKey)
  | verify (token : Token) (expectedChallenge : TokenChallenge)
  | verifyAndRedeem (token : Token) (expectedChallenge : TokenChallenge)

def machine : Machine Origin (Nat × Call) PublicOrigin.Answer where
  step origin input :=
    match input.2 with
    | .addBlindRsaKey key => (.done, origin.addBlindRsaKey key)
    | .addVoprfKey key => (.done, origin.addVoprfKey key)
    | .verify token challenge => (.result (origin.verify token challenge), origin)
    | .verifyAndRedeem token challenge =>
        let outcome := origin.verifyAndRedeem input.1 token challenge
        (.result outcome.1, outcome.2)

end Origin
end PrivacyPass
