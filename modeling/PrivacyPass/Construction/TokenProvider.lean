import PrivacyPass.Construction.MultiKeyIssuer
import PrivacyPass.Library.Machine

/-
This file models the provider that asks the issuers for tokens and keeps a stock of them.
-/

namespace PrivacyPass

open Library Crypto

/-- A request comes with what its finalization needs. -/
structure TokenRequestContext where
  request : TokenRequest
  finalizationData : FinalizationData
  challengeDigest : ChallengeDigest
  deriving DecidableEq

structure TokenProviderConfig where
  maxCachedTokens : Nat := 100
  originName : Bytes := []
  deriving DecidableEq

/-- The locale `C` has no other upper case letters than those of ASCII. -/
def toLower (char : UInt8) : UInt8 := if 0x41 ≤ char ∧ char ≤ 0x5A then char + 0x20 else char

def asciiEqualCaseInsensitive (a b : Bytes) : Bool :=
  a.length == b.length && (a.zip b).all fun pair => toLower pair.1 == toLower pair.2

/-- A challenge without origins allows every origin. -/
def originInfoAllows (origin : Bytes) (originInfo : List Bytes) : Bool :=
  if originInfo.isEmpty then true
  else if origin.isEmpty then false
  else originInfo.any fun candidate => asciiEqualCaseInsensitive origin candidate

/-- The provider files the keys under the names of their issuers and its tokens under the digests of
their challenges. -/
structure TokenProvider where
  config : TokenProviderConfig := {}
  issuerKeys : AList fun _ : Bytes => List PublicKey := ∅
  tokenCache : AList fun _ : ChallengeDigest => List Token := ∅

/-- Each of the two clients takes its part of the draws. -/
structure ProviderDraws extends RequestDraws where
  scalar : Option Nat

namespace TokenProvider

def addIssuerKey (provider : TokenProvider) (issuerName : Bytes) (key : PublicKey) : TokenProvider :=
  { provider with
    issuerKeys := provider.issuerKeys.insert issuerName
      ((provider.issuerKeys.lookup issuerName).getD [] ++ [key]) }

def removeIssuer (provider : TokenProvider) (issuerName : Bytes) : TokenProvider :=
  { provider with issuerKeys := provider.issuerKeys.erase issuerName }

/-- The first key of the issuer with the type is found. -/
def findKey (provider : TokenProvider) (issuer : Bytes) (type : TokenType) : Option PublicKey :=
  match provider.issuerKeys.lookup issuer with
  | none => none
  | some keys => keys.find? fun key => key.type = type

section Requests

variable [IssuanceBackend]

def prepareRequest (provider : TokenProvider) (draws : ProviderDraws) (challenge : TokenChallenge) :
    Result TokenRequestContext :=
  if originInfoAllows provider.config.originName challenge.originInfo = false then
    .error ⟨.invalidChallenge, "Challenge origin_info does not include current origin"⟩
  else
    match provider.findKey challenge.issuerName challenge.tokenType with
    | none =>
        let issuerName := String.ofList (challenge.issuerName.map fun byte => Char.ofNat byte.toNat)
        .error ⟨.issuerUnknown, "No key found for issuer: " ++ issuerName⟩
    | some key => do
        let challengeDigest ← challenge.digest.1
        if challenge.tokenType = .blindRsa ∨ challenge.tokenType = .partiallyBlindRsa then do
          let rsaKey ← BlindRsaPublicKey.fromSpki key.data
          let result ← PublicClient.createTokenRequest draws.toRequestDraws challenge rsaKey
          .ok ⟨result.request, result.finalizationData, challengeDigest⟩
        else if challenge.tokenType = .voprfP384Sha384 then do
          let voprfKey ← VoprfPublicKey.fromBytes key.data
          let result ← PrivateClient.createTokenRequest ⟨draws.nonce, draws.scalar⟩ challenge voprfKey
          .ok ⟨result.request, result.finalizationData, challengeDigest⟩
        else .error ⟨.unsupportedTokenType, "Unsupported token type"⟩

/-- The loop ends at the first request that fails, and each request has its own draws. -/
def prepareBatchRequest (provider : TokenProvider) (draws : Nat → ProviderDraws)
    (challenge : TokenChallenge) (count : Nat) : Result (List TokenRequestContext) :=
  (List.range count).mapM fun index => provider.prepareRequest (draws index) challenge

/-- The map of the keys is walked in an order of its own. -/
structure Walk (provider : TokenProvider) where
  entries : List (Sigma fun _ : Bytes => List PublicKey)
  permutes : entries.Perm provider.issuerKeys.entries

def Walk.keys {provider : TokenProvider} (walk : provider.Walk) : List PublicKey :=
  walk.entries.flatMap Sigma.snd

/-- The first key with the type and the id whose data can be read is taken. -/
def readKey {κ : Type} (read : Bytes → Result κ) (type : TokenType) (keyId : TokenKeyId)
    (keys : List PublicKey) : Option κ :=
  keys.findSome? fun key =>
    if key.type = type ∧ key.keyId = keyId then (read key.data).toOption else none

/-- The type of the response selects the key and the client. -/
def finalize (provider : TokenProvider) (walk : provider.Walk) (response : TokenResponse)
    (context : TokenRequestContext) : Result Token :=
  let keyId := context.finalizationData.tokenKeyId
  if response.tokenType = .blindRsa ∨ response.tokenType = .partiallyBlindRsa then
    match readKey BlindRsaPublicKey.fromSpki response.tokenType keyId walk.keys with
    | some rsaKey => PublicClient.finalize response context.finalizationData rsaKey
    | none => .error ⟨.issuerUnknown, "No matching key found for finalization"⟩
  else if response.tokenType = .voprfP384Sha384 then
    match readKey VoprfPublicKey.fromBytes response.tokenType keyId walk.keys with
    | some voprfKey => PrivateClient.finalize response context.finalizationData voprfKey
    | none => .error ⟨.issuerUnknown, "No matching key found for finalization"⟩
  else .error ⟨.issuerUnknown, "No matching key found for finalization"⟩

/-- Each response is finalized with the context at its index, and the loop ends at the first failure. -/
def finalizeBatch (provider : TokenProvider) (walk : provider.Walk) (responses : List TokenResponse)
    (contexts : List TokenRequestContext) : Result (List Token) :=
  if responses.length ≠ contexts.length then
    .error ⟨.malformedData, "Response and context count mismatch"⟩
  else (responses.zip contexts).mapM fun pair => provider.finalize walk pair.1 pair.2

end Requests

/-- The stock of one challenge takes tokens up to its limit, and the others are dropped. -/
def storeTokens (provider : TokenProvider) (challengeDigest : ChallengeDigest) (tokens : List Token) :
    TokenProvider :=
  let store (cache : List Token) (token : Token) : List Token :=
    if cache.length < provider.config.maxCachedTokens then cache ++ [token] else cache
  { provider with
    tokenCache := provider.tokenCache.insert challengeDigest
      (tokens.foldl store ((provider.tokenCache.lookup challengeDigest).getD [])) }

/-- The token that was stored last leaves the stock, and an empty stock is removed. -/
def getCachedToken (provider : TokenProvider) (challengeDigest : ChallengeDigest) :
    Option Token × TokenProvider :=
  match provider.tokenCache.lookup challengeDigest with
  | none => (none, provider)
  | some cache =>
      match cache.getLast? with
      | none => (none, provider)
      | some token =>
          let rest := cache.dropLast
          (some token,
            { provider with
              tokenCache :=
                if rest.isEmpty then provider.tokenCache.erase challengeDigest
                else provider.tokenCache.insert challengeDigest rest })

def cachedTokenCount (provider : TokenProvider) (challengeDigest : ChallengeDigest) : Nat :=
  match provider.tokenCache.lookup challengeDigest with
  | none => 0
  | some cache => cache.length

def clearCache (provider : TokenProvider) : TokenProvider := { provider with tokenCache := ∅ }

/-- The members of the class that change its state. -/
inductive Call where
  | addIssuerKey (issuerName : Bytes) (key : PublicKey)
  | removeIssuer (issuerName : Bytes)
  | storeTokens (challengeDigest : ChallengeDigest) (tokens : List Token)
  | getCachedToken (challengeDigest : ChallengeDigest)
  | clearCache

/-- A call answers with the token that it takes out of the stock. -/
def machine : Machine TokenProvider Call (Option Token) where
  step provider call :=
    match call with
    | .addIssuerKey issuerName key => (none, provider.addIssuerKey issuerName key)
    | .removeIssuer issuerName => (none, provider.removeIssuer issuerName)
    | .storeTokens challengeDigest tokens => (none, provider.storeTokens challengeDigest tokens)
    | .getCachedToken challengeDigest => provider.getCachedToken challengeDigest
    | .clearCache => (none, provider.clearCache)

/-- The members of the class that use the stock of tokens. -/
inductive StockCall where
  | storeTokens (challengeDigest : ChallengeDigest) (tokens : List Token)
  | getCachedToken (challengeDigest : ChallengeDigest)
  | cachedTokenCount (challengeDigest : ChallengeDigest)
  | clearCache

/-- A call gives nothing back, or a token if there is one, or the number of tokens. -/
inductive StockAnswer where
  | done
  | token (token : Option Token)
  | count (number : Nat)

def stockMachine : Machine TokenProvider StockCall StockAnswer where
  step provider call :=
    match call with
    | .storeTokens challengeDigest tokens => (.done, provider.storeTokens challengeDigest tokens)
    | .getCachedToken challengeDigest =>
        let (token, rest) := provider.getCachedToken challengeDigest
        (.token token, rest)
    | .cachedTokenCount challengeDigest => (.count (provider.cachedTokenCount challengeDigest), provider)
    | .clearCache => (.done, provider.clearCache)

end TokenProvider
end PrivacyPass
