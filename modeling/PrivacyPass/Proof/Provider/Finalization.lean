import PrivacyPass.Construction.TokenProvider
import PrivacyPass.Proof.Issuer.MultiKey

/-
This file proves for which challenges the provider can finalize the response to its own request.
-/

namespace PrivacyPass

open Library Crypto

namespace TokenProvider

section Registry

variable {provider : TokenProvider} {issuerName : Bytes} {key : PublicKey}

/-- The provider holds the key under the name of its issuer. -/
def Holds (provider : TokenProvider) (issuerName : Bytes) (key : PublicKey) : Prop :=
  ∃ keys, provider.issuerKeys.lookup issuerName = some keys ∧ key ∈ keys

/-- A found key is held and has the type. -/
theorem holds_of_findKey {type : TokenType} (found : provider.findKey issuerName type = some key) :
    provider.Holds issuerName key ∧ key.type = type := by
  unfold findKey at found
  split at found
  · cases found
  · next keys registered =>
      refine ⟨⟨keys, registered, List.mem_of_find?_eq_some found⟩, ?_⟩
      simpa using List.find?_some found

/-- A new key stands behind the keys of its issuer. -/
theorem holds_addIssuerKey (holds : provider.Holds issuerName key) (name : Bytes) (added : PublicKey) :
    (provider.addIssuerKey name added).Holds issuerName key := by
  obtain ⟨keys, registered, member⟩ := holds
  unfold addIssuerKey Holds
  by_cases same : issuerName = name
  · subst same
    rw [registered, AList.lookup_insert]
    exact ⟨_, rfl, List.mem_append_left _ member⟩
  · rw [AList.lookup_insert_ne same]
    exact ⟨keys, registered, member⟩

theorem holds_removeIssuer (holds : provider.Holds issuerName key) {name : Bytes}
    (other : issuerName ≠ name) : (provider.removeIssuer name).Holds issuerName key := by
  obtain ⟨keys, registered, member⟩ := holds
  exact ⟨keys, (AList.lookup_erase_ne other).trans registered, member⟩

/-- The stock of tokens does not touch the keys. -/
theorem getCachedToken_issuerKeys (provider : TokenProvider) (challengeDigest : ChallengeDigest) :
    (provider.getCachedToken challengeDigest).2.issuerKeys = provider.issuerKeys := by
  unfold getCachedToken
  split
  · rfl
  · split <;> rfl

/-- A call that does not remove the issuer keeps its keys. -/
theorem holds_step (holds : provider.Holds issuerName key) {call : Call}
    (kept : call ≠ .removeIssuer issuerName) : (machine.step provider call).2.Holds issuerName key := by
  cases call with
  | addIssuerKey name added => exact holds_addIssuerKey holds name added
  | removeIssuer name =>
      apply holds_removeIssuer holds
      intro same
      exact kept (by rw [same])
  | storeTokens challengeDigest tokens => exact holds
  | getCachedToken challengeDigest =>
      obtain ⟨keys, registered, member⟩ := holds
      refine ⟨keys, ?_, member⟩
      change (provider.getCachedToken challengeDigest).2.issuerKeys.lookup issuerName = some keys
      rw [getCachedToken_issuerKeys, registered]
  | clearCache => exact holds

/-- A run that does not remove the issuer keeps its keys. -/
theorem holds_of_runs {history : List (Call × Option Token)} {later : TokenProvider}
    (holds : provider.Holds issuerName key)
    (runs : machine.Runs (fun _ call => call ≠ .removeIssuer issuerName) provider history later) :
    later.Holds issuerName key := by
  refine @Machine.Runs.invariant _ _ _ machine _ _ _ _ (fun _ state => state.Holds issuerName key)
    holds ?_ runs
  intro history state call held kept
  exact holds_step held kept

/-- The walk meets the held keys. -/
theorem Walk.mem_keys_iff (walk : provider.Walk) :
    key ∈ walk.keys ↔ ∃ name, provider.Holds name key := by
  unfold Walk.keys Holds
  rw [List.mem_flatMap]
  constructor
  · intro ⟨⟨name, keys⟩, entry, member⟩
    exact ⟨name, keys, AList.mem_lookup_iff.mpr (walk.permutes.mem_iff.mp entry), member⟩
  · intro ⟨name, keys, registered, member⟩
    exact ⟨⟨name, keys⟩, walk.permutes.mem_iff.mpr (AList.mem_lookup_iff.mp registered), member⟩

/-- A readable key with the type and the id is enough for the walk to take one. -/
theorem readKey_of_mem {κ : Type} {read : Bytes → Result κ} {keys : List PublicKey} {value : κ}
    (member : key ∈ keys) (reads : read key.data = .ok value) :
    ∃ taken, readKey read key.type key.keyId keys = some taken := by
  apply Option.isSome_iff_exists.mp
  unfold readKey
  rw [List.findSome?_isSome_iff]
  refine ⟨key, member, ?_⟩
  rw [if_pos ⟨rfl, rfl⟩, reads]
  rfl

end Registry

/-- The RSA issuer signs the message of the request. -/
theorem publicIssuer_issue_eq_ok {issuer : PublicIssuer} {request : TokenRequest}
    {response : TokenResponse} (issued : issuer.issue request = .ok response) :
    ∃ signature, issuer.privateKey.blindSign request.blindedMsg = .ok signature ∧
      response = .createBlindRsa signature := by
  unfold PublicIssuer.issue at issued
  split at issued
  · cases issued
  split at issued
  · cases issued
  · obtain ⟨signature, signed, issued⟩ := Result.bind_eq_ok.mp issued
    exact ⟨signature, signed, (Except.ok.inj issued).symm⟩

section Requests

variable [IssuanceBackend]

/-- A response has the type of its issuer, whatever the request asks for. -/
theorem issue_tokenType {issuer : IssuerKey} {draws : List Nat} {request : TokenRequest}
    {response : TokenResponse} (issued : issuer.issue draws request = .ok response) :
    response.tokenType = issuer.kind := by
  cases issuer with
  | blindRsa key =>
      obtain ⟨signature, -, rfl⟩ := publicIssuer_issue_eq_ok issued
      rfl
  | voprf key memory =>
      change (PrivateIssuer.create key memory).issue draws request = .ok response at issued
      unfold PrivateIssuer.issue at issued
      split at issued
      · cases issued
      split at issued
      · cases issued
      split at issued
      · cases issued
      · obtain ⟨evaluation, -, issued⟩ := Result.bind_eq_ok.mp issued
        cases issued
        rfl

/-- The private client hands its blinded element to the request and keeps none. -/
theorem privateRequest_eq_ok {draws : PrivateRequestDraws} {challenge : TokenChallenge}
    {key : VoprfPublicKey} {result : TokenRequestResult}
    (created : PrivateClient.createTokenRequest draws challenge key = .ok result) :
    result.request.tokenType = challenge.tokenType ∧
      result.finalizationData.tokenType = challenge.tokenType ∧
      ∃ scalar input, result.finalizationData.data = .voprf ⟨scalar, [], input⟩ := by
  obtain ⟨nonce, -, created⟩ := Result.bind_eq_ok.mp created
  obtain ⟨digest, -, created⟩ := Result.bind_eq_ok.mp created
  obtain ⟨keyId, -, created⟩ := Result.bind_eq_ok.mp created
  obtain ⟨bytes, -, created⟩ := Result.bind_eq_ok.mp created
  obtain ⟨keyBytes, -, created⟩ := Result.bind_eq_ok.mp created
  obtain ⟨keyCopy, -, created⟩ := Result.bind_eq_ok.mp created
  obtain ⟨blind, -, created⟩ := Result.bind_eq_ok.mp created
  cases created
  exact ⟨rfl, rfl, blind.blindScalar, blind.input, rfl⟩

/-- No bytes are no point, so an evaluation without its blinded element is refused. -/
theorem voprfFinalize_moved (client : VoprfClient) (scalar input : Bytes)
    (evaluation : VoprfEvaluation) (output : Bytes) :
    client.finalize ⟨scalar, [], input⟩ evaluation ≠ .ok output := by
  intro finalized
  have missing : bytesToPoint [] = none := by
    rw [bytesToPoint, if_pos]
    exact .inl (by decide)
  unfold VoprfClient.finalize at finalized
  split at finalized
  · cases finalized
  split at finalized
  · cases finalized
  · rw [missing] at finalized
    cases finalized

/-- The private client cannot finalize the request that it has made. -/
theorem privateFinalize_moved (response : TokenResponse) {data : FinalizationData}
    {scalar input : Bytes} (moved : data.data = .voprf ⟨scalar, [], input⟩) (key : VoprfPublicKey)
    (token : Token) : PrivateClient.finalize response data key ≠ .ok token := by
  intro finalized
  unfold PrivateClient.finalize at finalized
  split at finalized
  · cases finalized
  · rw [moved] at finalized
    obtain ⟨keyBytes, -, finalized⟩ := Result.bind_eq_ok.mp finalized
    obtain ⟨keyCopy, -, finalized⟩ := Result.bind_eq_ok.mp finalized
    obtain ⟨authenticator, output, -⟩ := Result.bind_eq_ok.mp finalized
    exact voprfFinalize_moved _ _ _ _ _ output

/-- A prepared request is the request of the client for the found key. -/
theorem prepareRequest_eq_ok {provider : TokenProvider} {draws : ProviderDraws}
    {challenge : TokenChallenge} {context : TokenRequestContext}
    (prepared : provider.prepareRequest draws challenge = .ok context) :
    ∃ key result, provider.findKey challenge.issuerName challenge.tokenType = some key ∧
      context.request = result.request ∧ context.finalizationData = result.finalizationData ∧
      ((challenge.tokenType = .blindRsa ∨ challenge.tokenType = .partiallyBlindRsa) ∧
          (∃ rsaKey, BlindRsaPublicKey.fromSpki key.data = .ok rsaKey ∧
            PublicClient.createTokenRequest draws.toRequestDraws challenge rsaKey = .ok result) ∨
        challenge.tokenType = .voprfP384Sha384 ∧
          ∃ voprfKey, PrivateClient.createTokenRequest ⟨draws.nonce, draws.scalar⟩ challenge voprfKey =
            .ok result) := by
  unfold prepareRequest at prepared
  split at prepared
  · cases prepared
  split at prepared
  · cases prepared
  · next key found =>
      obtain ⟨digest, -, prepared⟩ := Result.bind_eq_ok.mp prepared
      split at prepared
      · next typed =>
          obtain ⟨rsaKey, parsed, prepared⟩ := Result.bind_eq_ok.mp prepared
          obtain ⟨result, created, prepared⟩ := Result.bind_eq_ok.mp prepared
          cases prepared
          exact ⟨key, result, found, rfl, rfl, .inl ⟨typed, rsaKey, parsed, created⟩⟩
      split at prepared
      · next typed =>
          obtain ⟨voprfKey, -, prepared⟩ := Result.bind_eq_ok.mp prepared
          obtain ⟨result, created, prepared⟩ := Result.bind_eq_ok.mp prepared
          cases prepared
          exact ⟨key, result, found, rfl, rfl, .inr ⟨typed, voprfKey, created⟩⟩
      · cases prepared

/-- The request has the type of the challenge. -/
theorem prepareRequest_tokenType {provider : TokenProvider} {draws : ProviderDraws}
    {challenge : TokenChallenge} {context : TokenRequestContext}
    (prepared : provider.prepareRequest draws challenge = .ok context) :
    context.request.tokenType = challenge.tokenType := by
  obtain ⟨key, result, -, request, -, made⟩ := prepareRequest_eq_ok prepared
  rw [request]
  rcases made with ⟨-, rsaKey, -, created⟩ | ⟨-, voprfKey, created⟩
  · obtain ⟨nonce, digest, keyId, blinding, -, -, -, rfl⟩ :=
      PublicClient.createTokenRequest_eq_ok created
    rfl
  · exact (privateRequest_eq_ok created).1

/-- The finalization ends with a token of the challenge. -/
def Finishes (provider : TokenProvider) (walk : provider.Walk) (challenge : TokenChallenge)
    (context : TokenRequestContext) (response : TokenResponse) : Prop :=
  response.tokenType = context.request.tokenType ∧
    ∃ token, provider.finalize walk response context = .ok token ∧
      token.tokenType = challenge.tokenType ∧ challenge.digest.1 = .ok token.challengeDigest

/-- The issuer has the private key to the registered key. -/
def Matches (key : PublicKey) : IssuerKey → Prop
  | .blindRsa secretKey => ∃ secret issued d spki keyId rsaKey, secretKey = ⟨some secret⟩ ∧
      IssuerKeyPair secret issued d spki keyId ∧
        BlindRsaPublicKey.fromSpki key.data = .ok rsaKey ∧ rsaKey.pkey = some issued
  | .voprf secretKey _ => ∃ publicKey, secretKey.publicKey = .ok publicKey ∧
      VoprfPublicKey.fromBytes key.data = .ok publicKey

/-- The key that the walk takes for the id of a key is the same RSA key. -/
def Walk.Takes {provider : TokenProvider} (walk : provider.Walk) (key : PublicKey) : Prop :=
  ∀ taken, readKey BlindRsaPublicKey.fromSpki .blindRsa key.keyId walk.keys = some taken →
    ∃ rsaKey, BlindRsaPublicKey.fromSpki key.data = .ok rsaKey ∧ taken.pkey = rsaKey.pkey

/-- The walk takes the right key where all keys have their hashes as their ids and no other key
shares the hash. -/
theorem takes_of_hashed {provider : TokenProvider} {key : PublicKey}
    (hashed : sha256 key.data = .ok key.keyId)
    (others : ∀ name other, provider.Holds name other → sha256 other.data = .ok other.keyId)
    (collisionFree : ∀ name other, provider.Holds name other →
      sha256 other.data = sha256 key.data → other.data = key.data) (walk : provider.Walk) :
    walk.Takes key := by
  intro taken found
  obtain ⟨other, member, read⟩ := List.exists_of_findSome?_eq_some found
  split at read
  · next named =>
      have parsed := Result.toOption_eq_some.mp read
      obtain ⟨name, holds⟩ := walk.mem_keys_iff.mp member
      have same : sha256 other.data = sha256 key.data := by
        rw [others name other holds, hashed, named.2]
      rw [collisionFree name other holds same] at parsed
      exact ⟨taken, parsed, rfl⟩
  · cases read

/-- A request of the provider that is finalized was made for a Blind RSA token: the RSA issuer
stamps no other type, and the private client has given its blinded element away. -/
theorem blindRsa_of_finishes {provider later : TokenProvider} {draws : ProviderDraws}
    {challenge : TokenChallenge} {context : TokenRequestContext}
    (prepared : provider.prepareRequest draws challenge = .ok context) {issuer : IssuerKey}
    {issuerDraws : List Nat} {response : TokenResponse}
    (issued : issuer.issue issuerDraws context.request = .ok response) {walk : later.Walk}
    (finishes : later.Finishes walk challenge context response) :
    challenge.tokenType = .blindRsa := by
  obtain ⟨same, token, finalized, -⟩ := finishes
  have requested := prepareRequest_tokenType prepared
  have stamped := issue_tokenType issued
  rw [same, requested] at stamped
  cases issuer with
  | blindRsa key => exact stamped
  | voprf key memory =>
      have typed : challenge.tokenType = .voprfP384Sha384 := stamped
      have responded : response.tokenType = .voprfP384Sha384 := same.trans (requested.trans typed)
      obtain ⟨found, result, -, -, kept, made⟩ := prepareRequest_eq_ok prepared
      rcases made with ⟨rsa, -⟩ | ⟨-, voprfKey, created⟩
      · rw [typed] at rsa
        exact absurd rsa (by decide)
      · obtain ⟨-, -, scalar, input, moved⟩ := privateRequest_eq_ok created
        rw [finalize, if_neg (by rw [responded]; decide), if_pos responded] at finalized
        split at finalized
        · next taken read =>
            exact absurd finalized (privateFinalize_moved _ (by rw [kept, moved]) taken token)
        · cases finalized

/-- The id of a key that was read is the hash of its bytes. -/
theorem keyId_of_parsed (refusesEmpty : RsaBackend.parsePublicKeySpki [] = none) {spki : Bytes}
    {rsaKey : BlindRsaPublicKey} (parsed : BlindRsaPublicKey.fromSpki spki = .ok rsaKey) :
    rsaKey.keyId = sha256 spki := by
  obtain ⟨-, pkey, parses, -, rfl⟩ := fromSpki_eq_ok.mp parsed
  have nonempty : ¬ spki.isEmpty = true := by
    intro empty
    rw [List.isEmpty_iff.mp empty, refusesEmpty] at parses
    cases parses
  rw [BlindRsaPublicKey.keyId, if_neg nonempty]

/-- Every response of the RSA issuer to a request of the client is finalized under every key object
with the public key of the issuer. -/
theorem finalize_created (hashes : HashesSucceed) (pss : PssConforms) {secret pkey : EvpPkey} {d : Nat}
    {spki : Bytes} {issuerKeyId : TokenKeyId} (pair : IssuerKeyPair secret pkey d spki issuerKeyId)
    {draws : RequestDraws} (salted : draws.salt.length = saltLength) {challenge : TokenChallenge}
    {rsaKey : BlindRsaPublicKey} (held : rsaKey.pkey = some pkey) {result : TokenRequestResult}
    (created : PublicClient.createTokenRequest draws challenge rsaKey = .ok result)
    {response : TokenResponse}
    (issued : (PublicIssuer.create ⟨some secret⟩).issue result.request = .ok response) :
    rsaKey.keyId = .ok result.finalizationData.tokenKeyId ∧ ∃ token, token.tokenType = challenge.tokenType ∧
      challenge.digest.1 = .ok token.challengeDigest ∧ ∀ taken : BlindRsaPublicKey, taken.pkey = some pkey →
        PublicClient.finalize response result.finalizationData taken = .ok token := by
  obtain ⟨nonce, digest, keyId, blinding, digested, identified, blinded, rfl⟩ :=
    PublicClient.createTokenRequest_eq_ok created
  obtain ⟨fresh, signature, authenticator, -, -, -, signed, accepted⟩ :=
    blind_sign_finalize hashes pss pair.isPssKey pair.exponents pair.modulus
      pair.known (AuthenticatorInput.wire ⟨challenge.tokenType, nonce, digest, keyId⟩) salted
      (blind_invertible held blinded)
  obtain rfl := Except.ok.inj ((accepted rsaKey held).1.symm.trans blinded)
  obtain ⟨again, answered, rfl⟩ := publicIssuer_issue_eq_ok issued
  rw [MultiKeyIssuer.publicIssuer_privateKey, signed] at answered
  obtain rfl := Except.ok.inj answered
  refine ⟨identified, ⟨challenge.tokenType, nonce, digest, keyId, authenticator⟩, rfl, digested, ?_⟩
  intro taken same
  exact PublicClient.finalize_ok ((accepted taken same).2.2 [])

/-- The response to a request for a Blind RSA token is finalized where the walk takes the RSA key of
the request. -/
theorem finishes_of_blindRsa (hashes : HashesSucceed) (pss : PssConforms)
    (refusesEmpty : RsaBackend.parsePublicKeySpki [] = none) {provider later : TokenProvider}
    {draws : ProviderDraws} (salted : draws.salt.length = saltLength) {challenge : TokenChallenge}
    {context : TokenRequestContext}
    (prepared : provider.prepareRequest draws challenge = .ok context) {key : PublicKey}
    (found : provider.findKey challenge.issuerName challenge.tokenType = some key)
    (hashed : sha256 key.data = .ok key.keyId) (holds : later.Holds challenge.issuerName key)
    {issuer : IssuerKey} (matching : Matches key issuer) {issuerDraws : List Nat}
    {response : TokenResponse} (issued : issuer.issue issuerDraws context.request = .ok response)
    {walk : later.Walk} (typed : challenge.tokenType = .blindRsa) (takes : walk.Takes key) :
    later.Finishes walk challenge context response := by
  have requested := (prepareRequest_tokenType prepared).trans typed
  have keyed : key.type = .blindRsa := (holds_of_findKey found).2.trans typed
  obtain ⟨selected, result, again, request, kept, made⟩ := prepareRequest_eq_ok prepared
  obtain rfl : selected = key := Option.some.inj (again.symm.trans found)
  rcases made with ⟨-, rsaKey, parsed, created⟩ | ⟨voprf, -⟩
  · cases issuer with
    | voprf secretKey memory =>
        change (PrivateIssuer.create secretKey memory).issue issuerDraws context.request = .ok response
          at issued
        rw [PrivateIssuer.issue, if_pos (by rw [requested]; decide)] at issued
        cases issued
    | blindRsa secretKey =>
        have stamped : response.tokenType = .blindRsa := issue_tokenType issued
        obtain ⟨secret, pkey, d, spki, issuerKeyId, other, rfl, pair, reread, held⟩ := matching
        obtain rfl := Except.ok.inj (parsed.symm.trans reread)
        rw [request] at issued
        obtain ⟨identified, token, tokenTyped, digested, finalized⟩ :=
          finalize_created hashes pss pair salted held created issued
        rw [keyId_of_parsed refusesEmpty parsed, hashed] at identified
        -- the walk takes a key, and it is the key of the request
        obtain ⟨taken, read⟩ := readKey_of_mem (walk.mem_keys_iff.mpr ⟨_, holds⟩) parsed
        rw [keyed, Except.ok.inj identified] at read
        obtain ⟨rsaKey, reread, same⟩ := takes taken (by rw [← read, Except.ok.inj identified])
        obtain rfl := Except.ok.inj (parsed.symm.trans reread)
        refine ⟨stamped.trans requested.symm, token, ?_, tokenTyped, digested⟩
        rw [finalize, if_pos (.inl stamped), stamped, kept]
        simp only [read]
        exact finalized taken (same.trans held)
  · rw [typed] at voprf
    exact absurd voprf MultiKeyIssuer.kinds_differ

/-- After every run that keeps the issuer the provider finalizes the response to its own request only
for a Blind RSA token, and exactly for one where the walk takes the RSA key of the request. -/
theorem finalize_prepareRequest (hashes : HashesSucceed) (pss : PssConforms)
    (refusesEmpty : RsaBackend.parsePublicKeySpki [] = none) {provider : TokenProvider}
    {draws : ProviderDraws} (salted : draws.salt.length = saltLength) {challenge : TokenChallenge}
    {context : TokenRequestContext}
    (prepared : provider.prepareRequest draws challenge = .ok context) {key : PublicKey}
    (found : provider.findKey challenge.issuerName challenge.tokenType = some key)
    (hashed : sha256 key.data = .ok key.keyId) {history : List (Call × Option Token)}
    {later : TokenProvider}
    (runs : machine.Runs (fun _ call => call ≠ .removeIssuer challenge.issuerName) provider history later)
    {issuer : IssuerKey} (matching : Matches key issuer) {issuerDraws : List Nat}
    {response : TokenResponse} (issued : issuer.issue issuerDraws context.request = .ok response)
    (walk : later.Walk) :
    (later.Finishes walk challenge context response → challenge.tokenType = .blindRsa) ∧
      (walk.Takes key →
        (later.Finishes walk challenge context response ↔ challenge.tokenType = .blindRsa)) := by
  have only : later.Finishes walk challenge context response → challenge.tokenType = .blindRsa :=
    blindRsa_of_finishes prepared issued
  have holds := holds_of_runs (holds_of_findKey found).1 runs
  refine ⟨only, fun takes => ⟨only, ?_⟩⟩
  intro typed
  exact finishes_of_blindRsa hashes pss refusesEmpty salted prepared found hashed holds matching issued
    typed takes

end Requests

section Instances

open MultiKeyIssuer (sharedBackend sharedBackend_hashes sharedBackend_conforms sharedKeyId sharedKey
  sharedKey_pair sharedRsaKey_parsed sharedDraws)

/-- A provider with one key holds no other. -/
theorem holds_single {config : TokenProviderConfig} {issuerName name : Bytes} {key other : PublicKey}
    (holds : (({ config := config } : TokenProvider).addIssuerKey issuerName key).Holds name other) :
    other = key := by
  obtain ⟨keys, registered, member⟩ := holds
  unfold addIssuerKey at registered
  by_cases same : name = issuerName
  · rw [same, AList.lookup_insert] at registered
    obtain rfl := Option.some.inj registered
    simpa using member
  · rw [AList.lookup_insert_ne same] at registered
    cases registered

def sharedIssuerName : Bytes := ascii "issuer.example.com"

/-- The key of a modulus is registered with the hash of its encoding. -/
def sharedPublicKey (type : TokenType) (n : Nat) : PublicKey := ⟨type, pssSpki n, sharedKeyId n⟩

def sharedProvider (type : TokenType) (n : Nat) : TokenProvider :=
  ({ config := { originName := ascii "origin.example.com" } } : TokenProvider).addIssuerKey
    sharedIssuerName (sharedPublicKey type n)

def sharedProviderDraws : ProviderDraws := ⟨sharedDraws, none⟩

def sharedChallenge (type : TokenType) : TokenChallenge :=
  .create type sharedIssuerName none [ascii "origin.example.com"]

theorem sharedProvider_findKey (type : TokenType) (n : Nat) :
    (sharedProvider type n).findKey sharedIssuerName type = some (sharedPublicKey type n) := by
  rw [findKey, sharedProvider, addIssuerKey, AList.lookup_insert]
  change [sharedPublicKey type n].find? _ = _
  rw [List.find?_cons_of_pos]
  exact decide_eq_true rfl

theorem sharedKey_matches {n d : Nat} (exponents : BlindSignature.RsaExponents n 65537 d)
    (bits : bnNumBits n = rsaBits) (type : TokenType) :
    @Matches sharedBackend (sharedPublicKey type n) (sharedKey n d) :=
  ⟨_, _, _, _, _, _, rfl, sharedKey_pair exponents bits, sharedRsaKey_parsed exponents bits, rfl⟩

theorem sharedBackend_refusesEmpty : sharedBackend.parsePublicKeySpki [] = none := by
  have nonempty (n : Nat) : pssSpki n ≠ [] := List.cons_ne_nil _ _
  change parsePssSpki [] = none
  rw [parsePssSpki]
  exact if_neg (nonempty _)

theorem sharedPublicKey_hashed (type : TokenType) (n : Nat) :
    @sha256 sharedBackend.toHashBackend (sharedPublicKey type n).data =
      .ok (sharedPublicKey type n).keyId := by
  have hashed : sharedBackend.evpSha256 (pssSpki n) = some (sharedKeyId n) := rfl
  dsimp only [sharedPublicKey]
  rw [@sha256.eq_1 sharedBackend.toHashBackend, hashed]

/-- The provider prepares a request for each of the two RSA types, and the issuer answers it. -/
theorem sharedProvider_prepares {n d : Nat} (exponents : BlindSignature.RsaExponents n 65537 d)
    (bits : bnNumBits n = rsaBits) {type : TokenType}
    (typed : type = .blindRsa ∨ type = .partiallyBlindRsa) : ∃ context response,
      @prepareRequest sharedBackend (sharedProvider type n) sharedProviderDraws (sharedChallenge type) =
        .ok context ∧
      @IssuerKey.issue sharedBackend.toCryptoBackend [] context.request (sharedKey n d) =
        .ok response := by
  have pair := sharedKey_pair exponents bits
  have digested : ∃ digest, (@TokenChallenge.digest sharedBackend.toHashBackend
      (sharedChallenge type)).1 = .ok digest := by
    have encodable : (sharedChallenge type).Encodable :=
      ⟨show sharedIssuerName ≠ [] by decide, show sharedIssuerName.length ≤ 65535 by decide,
        show ([TokenChallenge.comma].intercalate [ascii "origin.example.com"]).length ≤ 65535 by decide⟩
    exact ⟨_, @TokenChallenge.Coherent.digest_eq sharedBackend.toHashBackend _
      (@TokenChallenge.coherent_create sharedBackend.toHashBackend _ _ _ _) _ _
      (TokenChallenge.serialize_ok encodable) rfl⟩
  obtain ⟨digest, digested⟩ := digested
  have invertible := MultiKeyIssuer.sharedDraws_invertible (show Odd (pssKey n none).n from exponents.odd)
  obtain ⟨blinding, signature, authenticator, -, -, -, issued, accepted⟩ :=
    @IssuerKeyPair.issue_finalize sharedBackend.toRsaBackend _ _ _ _ _ sharedBackend_hashes
      sharedBackend_conforms pair (sharedChallenge type) typed sharedDraws _ rfl _ digested
      List.length_replicate invertible
  obtain ⟨-, -, created, -⟩ := accepted ⟨some (pssKey n none), pssSpki n⟩ rfl
  have created := created (@IssuerKeyPair.keyId_eq sharedBackend.toRsaBackend _ _ _ _ _ pair)
  refine ⟨⟨⟨type, truncatedKeyId (sharedKeyId n), blinding.blindedMsg⟩,
    ⟨type, ⟨List.replicate 32 0x11, rfl⟩, digest, sharedKeyId n, .blindRsa ⟨blinding.inverse, []⟩⟩, digest⟩,
    .createBlindRsa signature, ?_, issued⟩
  have allowed : ¬ originInfoAllows (sharedProvider type n).config.originName
      (sharedChallenge type).originInfo = false :=
    show ¬ originInfoAllows (ascii "origin.example.com") [ascii "origin.example.com"] = false by decide
  rw [@prepareRequest.eq_1 sharedBackend, if_neg allowed]
  simp only [show (sharedChallenge type).issuerName = sharedIssuerName from rfl,
    show (sharedChallenge type).tokenType = type from rfl, sharedProvider_findKey]
  rw [Result.bind_ok digested, if_pos typed]
  have parsed : @BlindRsaPublicKey.fromSpki sharedBackend.toRsaBackend (sharedPublicKey type n).data =
      _ := sharedRsaKey_parsed exponents bits
  rw [Result.bind_ok parsed]
  exact Result.bind_ok created

/-- The provider with the recorded key finalizes a Blind RSA token. -/
theorem finalize_prepareRequest_recorded : ∃ context response token,
    @prepareRequest sharedBackend (sharedProvider .blindRsa recordedModulus) sharedProviderDraws
      (sharedChallenge .blindRsa) = .ok context ∧
    @IssuerKey.issue sharedBackend.toCryptoBackend [] context.request
      (sharedKey recordedModulus recordedExponent) = .ok response ∧
    @finalize sharedBackend (sharedProvider .blindRsa recordedModulus) ⟨_, .refl _⟩ response context =
      .ok token ∧ token.tokenType = .blindRsa := by
  obtain ⟨context, response, prepared, issued⟩ :=
    sharedProvider_prepares recorded_exponents recordedModulus_bits (.inl rfl)
  have takes := @takes_of_hashed sharedBackend (sharedProvider .blindRsa recordedModulus)
    (sharedPublicKey .blindRsa recordedModulus) (sharedPublicKey_hashed _ _)
    (by
      intro name other holds
      rw [holds_single holds]
      exact sharedPublicKey_hashed _ _)
    (by
      intro name other holds same
      rw [holds_single holds])
  have settled := @finalize_prepareRequest sharedBackend sharedBackend_hashes sharedBackend_conforms
    sharedBackend_refusesEmpty _ _ List.length_replicate _ _ prepared
    (sharedPublicKey .blindRsa recordedModulus) (sharedProvider_findKey _ _)
    (sharedPublicKey_hashed _ _) [] _ .start
    (sharedKey recordedModulus recordedExponent)
    (sharedKey_matches recorded_exponents recordedModulus_bits _) [] response issued ⟨_, .refl _⟩
  obtain ⟨-, token, finalized, typed, -⟩ := (settled.2 (takes _)).mpr rfl
  exact ⟨context, response, token, prepared, issued, finalized, typed⟩

/-- The issuer answers a request for a partially blind token with the type of a blind one, and the
provider finds no key for it. -/
theorem finalize_prepareRequest_partiallyBlind : ∃ context response,
    @prepareRequest sharedBackend (sharedProvider .partiallyBlindRsa recordedModulus)
      sharedProviderDraws (sharedChallenge .partiallyBlindRsa) = .ok context ∧
    @Matches sharedBackend (sharedPublicKey .partiallyBlindRsa recordedModulus)
      (sharedKey recordedModulus recordedExponent) ∧
    @sha256 sharedBackend.toHashBackend (sharedPublicKey .partiallyBlindRsa recordedModulus).data =
      .ok (sharedPublicKey .partiallyBlindRsa recordedModulus).keyId ∧
    @IssuerKey.issue sharedBackend.toCryptoBackend [] context.request
      (sharedKey recordedModulus recordedExponent) = .ok response ∧
    response.tokenType ≠ context.request.tokenType ∧
    ∀ walk, @finalize sharedBackend (sharedProvider .partiallyBlindRsa recordedModulus) walk response
      context = .error ⟨.issuerUnknown, "No matching key found for finalization"⟩ := by
  obtain ⟨context, response, prepared, issued⟩ :=
    sharedProvider_prepares recorded_exponents recordedModulus_bits (.inr rfl)
  have requested := @prepareRequest_tokenType sharedBackend _ _ _ _ prepared
  have stamped : response.tokenType = .blindRsa := @issue_tokenType sharedBackend _ _ _ _ issued
  refine ⟨context, response, prepared, sharedKey_matches recorded_exponents recordedModulus_bits _,
    sharedPublicKey_hashed _ _, issued, ?_, ?_⟩
  · rw [stamped, requested]
    decide
  · intro walk
    have unread : readKey (@BlindRsaPublicKey.fromSpki sharedBackend.toRsaBackend) .blindRsa
        context.finalizationData.tokenKeyId walk.keys = none := by
      apply List.findSome?_eq_none_iff.mpr
      intro other member
      obtain ⟨name, holds⟩ := walk.mem_keys_iff.mp member
      rw [holds_single holds, if_neg]
      exact fun same => absurd same.1 (by decide)
    rw [@finalize.eq_1 sharedBackend, if_pos (.inl stamped), stamped, unread]

end Instances
end TokenProvider
end PrivacyPass
