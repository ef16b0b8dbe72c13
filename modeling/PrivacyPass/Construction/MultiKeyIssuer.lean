import PrivacyPass.Construction.PrivateToken

/-
This file models the issuer that holds several keys of both kinds.
-/

namespace PrivacyPass

open Library Crypto

/-- Both key systems work over one crypto library. -/
class IssuanceBackend extends CryptoBackend, CurveBackend

/-- The issuers of one kind are found by their key id, and the key ids by their last byte. -/
structure KeyedIssuers (ι : Type) where
  issuers : AList fun _ : TokenKeyId => ι := ∅
  keysByTruncatedId : AList fun _ : UInt8 => List TokenKeyId := ∅

namespace KeyedIssuers

variable {ι : Type}

/-- A known key id is listed again, and its issuer is replaced. -/
def add (held : KeyedIssuers ι) (keyId : TokenKeyId) (truncatedId : UInt8) (issuer : ι) :
    KeyedIssuers ι where
  issuers := held.issuers.insert keyId issuer
  keysByTruncatedId := held.keysByTruncatedId.insert truncatedId
    ((held.keysByTruncatedId.lookup truncatedId).getD [] ++ [keyId])

def removeKey (held : KeyedIssuers ι) (truncatedId : UInt8) : KeyedIssuers ι :=
  match held.keysByTruncatedId.lookup truncatedId with
  | none => held
  | some keyIds =>
      { issuers := keyIds.foldl (fun issuers keyId => issuers.erase keyId) held.issuers
        keysByTruncatedId := held.keysByTruncatedId.erase truncatedId }

/-- The listed key ids are tried in their order until the issuer of one of them answers. -/
def tryKeys (held : KeyedIssuers ι) (answer : Nat → ι → Result TokenResponse)
    (keyIds : List TokenKeyId) : Option TokenResponse :=
  keyIds.zipIdx.findSome? fun candidate =>
    match held.issuers.lookup candidate.1 with
    | none => none
    | some issuer => (answer candidate.2 issuer).toOption

def issue (held : KeyedIssuers ι) (answer : Nat → ι → Result TokenResponse) (truncatedId : UInt8)
    (unknown unmatched : String) : Result TokenResponse :=
  match held.keysByTruncatedId.lookup truncatedId with
  | none => .error ⟨.issuerUnknown, unknown⟩
  | some keyIds =>
      if keyIds.isEmpty then .error ⟨.issuerUnknown, unknown⟩
      else
        match held.tryKeys answer keyIds with
        | some response => .ok response
        | none => .error ⟨.issuerUnknown, unmatched⟩

end KeyedIssuers

/-- The map of the issuers of one kind is walked in an order of its own. -/
structure KeyedIssuers.Walk {ι : Type} (held : KeyedIssuers ι) where
  entries : List (Sigma fun _ : TokenKeyId => ι)
  permutes : entries.Perm held.issuers.entries

/-- The two kinds of keys are kept apart. -/
structure MultiKeyIssuer where
  rsa : KeyedIssuers PublicIssuer := {}
  voprf : KeyedIssuers PrivateIssuer := {}

namespace MultiKeyIssuer

variable [CryptoBackend]

def addBlindRsaKey (multi : MultiKeyIssuer) (key : BlindRsaPrivateKey) :
    Result Unit × MultiKeyIssuer :=
  let issuer := PublicIssuer.create key
  match issuer.privateKey.publicKey.bind BlindRsaPublicKey.keyId with
  | .error error => (.error error, multi)
  | .ok keyId => (.ok (), { multi with rsa := multi.rsa.add keyId issuer.truncatedKeyId issuer })

/-- The memory is what an issuer without a key id reads as its ids. -/
def addVoprfKey (multi : MultiKeyIssuer) (key : VoprfPrivateKey) (memory : TokenKeyId × UInt8) :
    Result Unit × MultiKeyIssuer :=
  let issuer := PrivateIssuer.create key memory
  match issuer.privateKey.publicKey.bind VoprfPublicKey.keyId with
  | .error error => (.error error, multi)
  | .ok keyId => (.ok (), { multi with voprf := multi.voprf.add keyId issuer.truncatedKeyId issuer })

/-- All keys of both kinds with the truncated id go. -/
def removeKey (multi : MultiKeyIssuer) (truncatedKeyId : UInt8) : MultiKeyIssuer where
  rsa := multi.rsa.removeKey truncatedKeyId
  voprf := multi.voprf.removeKey truncatedKeyId

/-- Each candidate among the keys has its own random draws. -/
def issue (multi : MultiKeyIssuer) (draws : Nat → List Nat) (request : TokenRequest) :
    Result TokenResponse :=
  if request.tokenType = .blindRsa ∨ request.tokenType = .partiallyBlindRsa then
    multi.rsa.issue (fun _ issuer => issuer.issue request) request.truncatedTokenKeyId
      "Unknown RSA key ID" "No matching RSA key found"
  else if request.tokenType = .voprfP384Sha384 then
    multi.voprf.issue (fun index issuer => issuer.issue (draws index) request)
      request.truncatedTokenKeyId "Unknown VOPRF key ID" "No matching VOPRF key found"
  else .error ⟨.unsupportedTokenType, "Unsupported token type"⟩

/-- A key that cannot be written is left out. -/
def listPublicKey (issuer : PublicIssuer) : Option PublicKey :=
  match issuer.privateKey.publicKey with
  | .error _ => none
  | .ok pub =>
      match pub.toSpki, pub.keyId with
      | .ok spki, .ok pubKeyId => some ⟨.blindRsa, spki, pubKeyId⟩
      | _, _ => none

def listPrivateKey (issuer : PrivateIssuer) : Option PublicKey :=
  match issuer.privateKey.publicKey with
  | .error _ => none
  | .ok pub =>
      match pub.toBytes, pub.keyId with
      | .ok bytes, .ok pubKeyId => some ⟨.voprfP384Sha384, bytes, pubKeyId⟩
      | _, _ => none

/-- The RSA keys come first. -/
def publicKeys (multi : MultiKeyIssuer) (rsaWalk : multi.rsa.Walk) (voprfWalk : multi.voprf.Walk) :
    List PublicKey :=
  (rsaWalk.entries.filterMap fun entry => listPublicKey entry.2) ++
    voprfWalk.entries.filterMap fun entry => listPrivateKey entry.2

end MultiKeyIssuer

/-- A private key of one of the two kinds. -/
inductive IssuerKey where
  | blindRsa (key : BlindRsaPrivateKey)
  | voprf (key : VoprfPrivateKey) (memory : TokenKeyId × UInt8)

namespace IssuerKey

/-- The issuer lists its public keys under these types. -/
def kind : IssuerKey → TokenType
  | .blindRsa _ => .blindRsa
  | .voprf _ _ => .voprfP384Sha384

/-- The id of the key is the id of its public key. -/
def keyId [CryptoBackend] : IssuerKey → Result TokenKeyId
  | .blindRsa key => key.publicKey.bind BlindRsaPublicKey.keyId
  | .voprf key _ => key.publicKey.bind VoprfPublicKey.keyId

/-- An issuer with this key alone answers the request. -/
def issue [CryptoBackend] (draws : List Nat) (request : TokenRequest) :
    IssuerKey → Result TokenResponse
  | .blindRsa key => (PublicIssuer.create key).issue request
  | .voprf key memory => (PrivateIssuer.create key memory).issue draws request

/-- The client of the kind turns a response into a token of the public key. -/
def finalize [IssuanceBackend] (response : TokenResponse) (finalizationData : FinalizationData) :
    IssuerKey → Result Token
  | .blindRsa key => key.publicKey.bind (PublicClient.finalize response finalizationData)
  | .voprf key _ => key.publicKey.bind (PrivateClient.finalize response finalizationData)

end IssuerKey

namespace MultiKeyIssuer

/-- The members of the class that change its keys. -/
inductive Call where
  | addKey (key : IssuerKey)
  | removeKey (truncatedKeyId : UInt8)

variable [CryptoBackend]

def machine : Machine MultiKeyIssuer Call (Result Unit) where
  step multi call :=
    match call with
    | .addKey (.blindRsa key) => multi.addBlindRsaKey key
    | .addKey (.voprf key memory) => multi.addVoprfKey key memory
    | .removeKey truncatedKeyId => (.ok (), multi.removeKey truncatedKeyId)

end MultiKeyIssuer
end PrivacyPass
