import PrivacyPass.Proof.Provider.Requests
import PrivacyPass.Proof.Wire.BatchFormat

/-
This file follows a batch of requests of the provider to the issuer and back.
-/

namespace PrivacyPass

open Library Crypto

/-- A loop over a list succeeds exactly when each of its steps does. -/
theorem Result.mapM_eq_ok {α β : Type} {f : α → Result β} {list : List α} {values : List β} :
    list.mapM f = .ok values ↔ List.Forall₂ (fun item value => f item = .ok value) list values := by
  induction list generalizing values with
  | nil =>
      rw [List.mapM_nil, List.forall₂_nil_left_iff]
      constructor
      · intro same
        exact (Except.ok.inj same).symm
      · rintro rfl
        rfl
  | cons head tail ih =>
      rw [List.mapM_cons, Result.bind_eq_ok, List.forall₂_cons_left_iff]
      constructor
      · rintro ⟨first, headed, rest⟩
        obtain ⟨others, tailed, same⟩ := Result.bind_eq_ok.mp rest
        exact ⟨first, others, headed, ih.mp tailed, (Except.ok.inj same).symm⟩
      · rintro ⟨first, others, headed, tailed, rfl⟩
        exact ⟨first, headed, Result.bind_eq_ok.mpr ⟨others, ih.mpr tailed, rfl⟩⟩

namespace TokenProvider

section Provider

variable [IssuanceBackend] {provider later : TokenProvider} {challenge : TokenChallenge}

section Answers

variable (hashes : HashesSucceed) (pss : PssConforms) {secret issued : EvpPkey} {d : Nat} {spki : Bytes}
  {keyId : TokenKeyId} (pair : IssuerKeyPair secret issued d spki keyId)
  (typed : challenge.tokenType = .blindRsa)
  (found : provider.findKey challenge.issuerName .blindRsa = some ⟨.blindRsa, spki, keyId⟩)

include hashes pss pair typed found

/-- The issuer answers a prepared request, and the provider makes a certified token of the answer as
long as its walk takes the key of the request. -/
theorem prepareRequest_answered {draws : ProviderDraws} (salt : draws.salt.length = saltLength)
    {context : TokenRequestContext} (prepared : provider.prepareRequest draws challenge = .ok context) :
    BatchedTokenRequest.Batchable context.request ∧ context.request.serializedSize = 259 ∧
    context.finalizationData.tokenType = .blindRsa ∧
    draws.nonce = some context.finalizationData.nonce ∧
    challenge.digest.1 = .ok context.finalizationData.challengeDigest ∧
    context.finalizationData.tokenKeyId = keyId ∧
    ∃ signature token, signature.length = 256 ∧
      (PublicIssuer.create ⟨some secret⟩).issue context.request = .ok (.createBlindRsa signature) ∧
      Certified context.finalizationData ⟨some issued, spki⟩ token ∧
      ∀ later : TokenProvider, later.Holds challenge.issuerName ⟨.blindRsa, spki, keyId⟩ →
        ∀ walk : later.Walk, walk.Takes ⟨.blindRsa, spki, keyId⟩ →
          later.finalize walk (.createBlindRsa signature) context = .ok token := by
  have rsa : challenge.tokenType = .blindRsa ∨ challenge.tokenType = .partiallyBlindRsa := .inl typed
  obtain ⟨-, key, result, again, created, -, made⟩ := prepareRequest_iff.mp prepared
  rw [typed, found] at again
  obtain rfl := Option.some.inj again
  have read : BlindRsaPublicKey.fromSpki spki = .ok ⟨some issued, spki⟩ :=
    fromSpki_eq_ok.mpr ⟨pair.short, issued, pair.parsed, pair.valid, rfl⟩
  rw [Client.createTokenRequest_of_rsa rsa typed read] at created
  obtain ⟨dataTyped, drawn, digested, named⟩ := PublicClient.createTokenRequest_data created
  obtain ⟨sized, requested, signature, token, size, issues, accepted⟩ :=
    pair.answers hashes pss salt rsa rfl pair.keyId_eq created
  rw [pair.keyId_eq] at named
  have named := Except.ok.inj named
  rw [made]
  have known : (TokenTypeInfo.forType result.request.tokenType).blindedElementSize = 256 := by
    rw [requested, typed]
    decide
  refine ⟨⟨sized, ?_⟩, ?_, dataTyped.trans typed, drawn, digested, named.symm, signature, token, size,
    issues, (accepted _ rfl).1, ?_⟩
  · rw [known]
    decide
  · have length : result.request.blindedMsg.length = 256 := sized.trans known
    rw [TokenRequest.serializedSize, length]
  · intro later holds walk takes
    obtain ⟨taken, taking⟩ := readKey_of_mem (walk.mem_keys_iff.mpr ⟨_, holds⟩) read
    obtain ⟨rsaKey, parsed, same⟩ := takes taken taking
    obtain rfl := Except.ok.inj (parsed.symm.trans read)
    rw [finalize, if_pos (.inl rfl)]
    dsimp only [TokenResponse.createBlindRsa] at taking ⊢
    rw [← named, taking]
    exact (accepted taken same).2 _

end Answers

/-- The batch of requests and the batch of responses cross the wire. -/
def exchangeBatch (later : TokenProvider) (walk : later.Walk) (issuer : PublicIssuer)
    (contexts : List TokenRequestContext) : Result (List Token) := do
  let requestBytes ← (⟨contexts.map TokenRequestContext.request⟩ : BatchedTokenRequest).serialize
  let requests ← BatchedTokenRequest.deserialize requestBytes
  let responses ← issuer.issueBatch requests
  let responseBytes ← responses.serialize
  let responses ← BatchedTokenResponse.deserialize responseBytes
  later.finalizeBatch walk (responses.responses.filterMap OptionalTokenResponse.response) contexts

omit [IssuanceBackend] in
/-- An accepted batch of requests is no longer than its limit and the longest form of its size. -/
theorem accepted_payload {payload : Bytes} {requests : BatchedTokenRequest}
    (accepted : BatchedTokenRequest.deserialize (payloadWire payload) = .ok requests) :
    payload.length ≤ 65543 := by
  obtain ⟨-, -, word, size, form, small, length, whole⟩ :=
    BatchedTokenRequest.deserialize_iff.mp accepted
  have short : word.length ≤ 8 := by
    cases form <;> simp
  have limit : size.toNat ≤ 65535 := UInt64.le_iff_toNat_le.mp small
  have total := congrArg List.length whole
  rw [payloadWire, List.length_append, List.length_append, length] at total
  omega

section Exchange

variable {contexts : List TokenRequestContext} {signature : TokenRequestContext → Bytes}
  {token : TokenRequestContext → Token} {issuer : PublicIssuer} {walk : later.Walk}

omit [IssuanceBackend] in
/-- Requests of 259 bytes each. -/
theorem requests_size (sized : ∀ context ∈ contexts, context.request.serializedSize = 259) :
    ((contexts.map TokenRequestContext.request).map TokenRequest.serializedSize).sum =
      259 * contexts.length := by
  have constant : contexts.map (TokenRequest.serializedSize ∘ TokenRequestContext.request) =
      contexts.map fun _ => 259 := List.map_congr_left sized
  rw [List.map_map, constant, List.map_const', List.sum_replicate, smul_eq_mul, Nat.mul_comm]

/-- A batch that fits into one payload comes back as the tokens of its requests. -/
theorem exchangeBatch_ok (few : contexts.length ≤ 253)
    (batchable : ∀ context ∈ contexts, BatchedTokenRequest.Batchable context.request ∧
      context.request.serializedSize = 259)
    (sized : ∀ context ∈ contexts, (signature context).length = 256)
    (issues : ∀ context ∈ contexts,
      issuer.issue context.request = .ok (.createBlindRsa (signature context)))
    (finalizes : ∀ context ∈ contexts,
      later.finalize walk (.createBlindRsa (signature context)) context = .ok (token context)) :
    exchangeBatch later walk issuer contexts = .ok (contexts.map token) := by
  have requestsRead : BatchedTokenRequest.deserialize
      (payloadWire ((contexts.map TokenRequestContext.request).flatMap TokenRequest.wire)) =
        .ok ⟨contexts.map TokenRequestContext.request⟩ := by
    apply BatchedTokenRequest.deserialize_wire
    · exact List.forall_mem_map.mpr fun context member => (batchable context member).1
    · rw [List.length_map]
      exact few.trans (by decide)
    · rw [requests_size fun context member => (batchable context member).2]
      omega
  let responses := contexts.map fun context =>
    (⟨true, some (.createBlindRsa (signature context))⟩ : OptionalTokenResponse)
  have issued : issuer.issueBatch ⟨contexts.map TokenRequestContext.request⟩ = .ok ⟨responses⟩ := by
    rw [PublicIssuer.issueBatch, List.map_map]
    congr 2
    apply List.map_congr_left
    intro context member
    rw [Function.comp_apply, issues context member]
    rfl
  have responsesSized : ∀ response ∈ responses, response.Sized :=
    List.forall_mem_map.mpr fun context member =>
      .present ⟨.inl rfl, sized context member⟩
  have payload : BatchedTokenResponse.payloadSize responses = 259 * contexts.length := by
    have lengths : ∀ context ∈ contexts, ((fun response => response.wire.length) ∘ fun context =>
        (⟨true, some (.createBlindRsa (signature context))⟩ : OptionalTokenResponse)) context = 259 := by
      intro context member
      have present : (TokenResponse.createBlindRsa (signature context)).Sized :=
        ⟨.inl rfl, sized context member⟩
      exact OptionalTokenResponse.wire_length present
    rw [BatchedTokenResponse.payloadSize, List.map_map, List.map_congr_left (g := fun _ => 259) lengths,
      List.map_const', List.sum_replicate, smul_eq_mul, Nat.mul_comm]
  have responsesRead := BatchedTokenResponse.deserialize_wire responsesSized
    (by rw [List.length_map]; exact few.trans (by decide)) (by omega)
  have written := BatchedTokenResponse.serialize_eq responsesSized
    (by rw [payload, BatchedTokenResponse.sizeMax]; omega)
  have kept : responses.filterMap OptionalTokenResponse.response =
      contexts.map fun context => .createBlindRsa (signature context) := by
    rw [List.filterMap_map]
    exact congrFun (List.filterMap_eq_map
      (f := fun context => TokenResponse.createBlindRsa (signature context))) contexts
  rw [exchangeBatch, Result.bind_ok (BatchedTokenRequest.serialize_eq _), Result.bind_ok requestsRead,
    Result.bind_ok issued, Result.bind_ok written, Result.bind_ok responsesRead]
  dsimp only
  rw [kept, finalizeBatch, if_neg (by rw [List.length_map]; exact not_not.mpr rfl), Result.mapM_eq_ok]
  have pairs : (contexts.map fun context => TokenResponse.createBlindRsa (signature context)).zip contexts =
      contexts.map fun context => (.createBlindRsa (signature context), context) := by
    have zipped := @List.zip_map' _ _ _
      (fun context => TokenResponse.createBlindRsa (signature context)) id contexts
    rwa [List.map_id] at zipped
  rw [pairs, List.forall₂_map_left_iff, List.forall₂_map_right_iff, List.forall₂_same]
  exact finalizes

/-- A larger batch is refused by the parser of the requests. -/
theorem exchangeBatch_large (sized : ∀ context ∈ contexts, context.request.serializedSize = 259)
    {tokens : List Token} (exchanged : exchangeBatch later walk issuer contexts = .ok tokens) :
    contexts.length ≤ 253 := by
  obtain ⟨bytes, serialized, reading⟩ := Result.bind_eq_ok.mp exchanged
  obtain ⟨requests, read, -⟩ := Result.bind_eq_ok.mp reading
  rw [BatchedTokenRequest.serialize_eq] at serialized
  obtain rfl := Except.ok.inj serialized
  have short := accepted_payload read
  rw [BatchedTokenRequest.flatMap_wire_length, requests_size sized] at short
  omega

end Exchange

/-- Each context of a batch is prepared with its own draws. -/
theorem prepareBatchRequest_contexts {draws : Nat → ProviderDraws} {count : Nat}
    {contexts : List TokenRequestContext}
    (prepared : provider.prepareBatchRequest draws challenge count = .ok contexts) :
    contexts.length = count ∧ ∀ index context, contexts[index]? = some context →
      index < count ∧ provider.prepareRequest (draws index) challenge = .ok context := by
  obtain ⟨length, each⟩ := List.forall₂_iff_get.mp (Result.mapM_eq_ok.mp prepared)
  rw [List.length_range] at length
  refine ⟨length.symm, ?_⟩
  intro index context found
  obtain ⟨inside, rfl⟩ := List.getElem?_eq_some_iff.mp found
  have bound : index < count := by rwa [length]
  have step := each index (by rwa [List.length_range]) inside
  simp only [List.get_eq_getElem, List.getElem_range] at step
  exact ⟨bound, step⟩

/-- The batch of the provider comes back from its issuer exactly when it has at most 253 requests, and
then each of its tokens answers the request at its index, crosses the wire to the origin and is
accepted by every origin with the key against every challenge with the digest. -/
theorem exchangeBatch_iff (hashes : HashesSucceed) (pss : PssConforms) {secret issued : EvpPkey} {d : Nat}
    {spki : Bytes} {keyId : TokenKeyId} (pair : IssuerKeyPair secret issued d spki keyId)
    (typed : challenge.tokenType = .blindRsa)
    (found : provider.findKey challenge.issuerName .blindRsa = some ⟨.blindRsa, spki, keyId⟩)
    {draws : Nat → ProviderDraws} {count : Nat}
    (salt : ∀ index < count, (draws index).salt.length = saltLength)
    {contexts : List TokenRequestContext}
    (prepared : provider.prepareBatchRequest draws challenge count = .ok contexts)
    (holds : later.Holds challenge.issuerName ⟨.blindRsa, spki, keyId⟩) (walk : later.Walk)
    (takes : walk.Takes ⟨.blindRsa, spki, keyId⟩) :
    ((∃ tokens, exchangeBatch later walk (.create ⟨some secret⟩) contexts = .ok tokens) ↔ count ≤ 253) ∧
    ∀ tokens, exchangeBatch later walk (.create ⟨some secret⟩) contexts = .ok tokens →
      tokens.length = count ∧ ∀ index token, tokens[index]? = some token →
        (draws index).nonce = some token.nonce ∧ token.tokenType = .blindRsa ∧
        token.tokenKeyId = keyId ∧ ∃ text, Http.buildAuthorization token = .ok text ∧
          Http.parseAuthorization text = .ok token ∧
          ∀ (origin : PublicOrigin) held expected, origin.HoldsKey keyId held →
            held.pkey = some issued → expected.digest.1 = challenge.digest.1 →
              origin.verify token expected = .ok true := by
  obtain ⟨length, each⟩ := prepareBatchRequest_contexts prepared
  have answered : ∀ context ∈ contexts, BatchedTokenRequest.Batchable context.request ∧
      context.request.serializedSize = 259 ∧ ∃ signature token, signature.length = 256 ∧
        (PublicIssuer.create ⟨some secret⟩).issue context.request = .ok (.createBlindRsa signature) ∧
        later.finalize walk (.createBlindRsa signature) context = .ok token := by
    intro context member
    obtain ⟨index, inside⟩ := List.mem_iff_getElem?.mp member
    obtain ⟨bound, single⟩ := each index context inside
    obtain ⟨batchable, size, -, -, -, -, signature, token, signed, issues, -, finalizes⟩ :=
      prepareRequest_answered hashes pss pair typed found (salt index bound) single
    exact ⟨batchable, size, signature, token, signed, issues, finalizes later holds walk takes⟩
  have inhabited : Nonempty Token := ⟨⟨.blindRsa, .zero 32, .zero 32, .zero 32, []⟩⟩
  choose! batchable size signature token signed issues finalizes using answered
  have exchanged : contexts.length ≤ 253 →
      exchangeBatch later walk (.create ⟨some secret⟩) contexts = .ok (contexts.map token) := fun few =>
    exchangeBatch_ok few (fun context member => ⟨batchable context member, size context member⟩) signed
      issues finalizes
  refine ⟨⟨?_, ?_⟩, ?_⟩
  · rintro ⟨tokens, success⟩
    rw [← length]
    exact exchangeBatch_large size success
  · intro few
    rw [← length] at few
    exact ⟨_, exchanged few⟩
  · intro tokens success
    obtain rfl := Except.ok.inj ((exchanged (exchangeBatch_large size success)).symm.trans success)
    refine ⟨by rw [List.length_map, length], ?_⟩
    intro index made inside
    rw [List.getElem?_map, Option.map_eq_some_iff] at inside
    obtain ⟨context, inside, rfl⟩ := inside
    have member := List.mem_of_getElem? inside
    obtain ⟨bound, single⟩ := each index context inside
    obtain ⟨-, -, dataTyped, drawn, digested, named, other, made, -, issuesOther, certified, finalizesOther⟩ :=
      prepareRequest_answered hashes pss pair typed found (salt index bound) single
    obtain rfl : signature context = other := by
      have same := (issues context member).symm.trans issuesOther
      cases Except.ok.inj same
      rfl
    obtain rfl := Except.ok.inj
      ((finalizes context member).symm.trans (finalizesOther later holds walk takes))
    have rsa : (token context).tokenType = .blindRsa ∨ (token context).tokenType = .partiallyBlindRsa :=
      .inl (certified.typed.trans dataTyped)
    obtain ⟨text, built, parsed⟩ := certified.delivered rsa
    refine ⟨by rw [drawn, certified.nonce], certified.typed.trans dataTyped,
      certified.named.trans named, text, built, parsed, ?_⟩
    intro origin held expected holdsKey same digest
    apply certified.accepted rsa _ _ same.symm
    · rw [digest, digested, certified.digest]
    · rwa [certified.named, named]

section Soundness

variable {walk : later.Walk} {response : TokenResponse} {context : TokenRequestContext} {token : Token}

/-- A prepared context keeps the data of an RSA request, or it has given its blinded element away. -/
theorem prepareRequest_content {draws : ProviderDraws}
    (prepared : provider.prepareRequest draws challenge = .ok context) :
    ((context.finalizationData.tokenType = .blindRsa ∨
        context.finalizationData.tokenType = .partiallyBlindRsa) ∧
      ∃ data, context.finalizationData.data = .blindRsa data) ∨
      ∃ scalar input, context.finalizationData.data = .voprf ⟨scalar, [], input⟩ := by
  obtain ⟨key, result, -, -, kept, made⟩ := prepareRequest_eq_ok prepared
  rw [kept]
  rcases made with ⟨rsa, rsaKey, -, created⟩ | ⟨-, voprfKey, created⟩
  · obtain ⟨nonce, digest, keyId, blinding, -, -, -, rfl⟩ :=
      PublicClient.createTokenRequest_eq_ok created
    exact .inl ⟨rsa, _, rfl⟩
  · exact .inr (privateRequest_eq_ok created).2.2

/-- A key that the walk takes is held under the id and was read from its bytes. -/
theorem holds_of_readKey {type : TokenType} {id : TokenKeyId} {rsaKey : BlindRsaPublicKey}
    (taken : readKey BlindRsaPublicKey.fromSpki type id walk.keys = some rsaKey) :
    ∃ name key, later.Holds name key ∧ key.keyId = id ∧ BlindRsaPublicKey.fromSpki key.data = .ok rsaKey := by
  obtain ⟨key, member, read⟩ := List.exists_of_findSome?_eq_some taken
  split at read
  · next named =>
      obtain ⟨name, holds⟩ := walk.mem_keys_iff.mp member
      exact ⟨name, key, holds, named.2, Result.toOption_eq_some.mp read⟩
  · cases read

/-- Whatever the response contains, the token that the provider makes of it is an RSA token that is
certified under a held key with the id of the request. -/
theorem finalize_sound {draws : ProviderDraws}
    (prepared : provider.prepareRequest draws challenge = .ok context)
    (finalized : later.finalize walk response context = .ok token) :
    (token.tokenType = .blindRsa ∨ token.tokenType = .partiallyBlindRsa) ∧
      ∃ name key rsaKey, later.Holds name key ∧ key.keyId = token.tokenKeyId ∧
        BlindRsaPublicKey.fromSpki key.data = .ok rsaKey ∧
        Certified context.finalizationData rsaKey token := by
  have content := prepareRequest_content prepared
  unfold finalize at finalized
  dsimp only at finalized
  split at finalized
  · split at finalized
    · next rsaKey taken =>
        have certified := PublicClient.finalize_certified finalized
        obtain ⟨name, key, holds, named, read⟩ := holds_of_readKey taken
        rcases content with ⟨rsa, -⟩ | ⟨scalar, input, moved⟩
        · rw [← certified.typed] at rsa
          exact ⟨rsa, name, key, rsaKey, holds, named.trans certified.named.symm, read, certified⟩
        · unfold PublicClient.finalize at finalized
          split at finalized
          · cases finalized
          · rw [moved] at finalized
            cases finalized
    · cases finalized
  split at finalized
  · split at finalized
    · next voprfKey taken =>
        rcases content with ⟨-, data, kept⟩ | ⟨scalar, input, moved⟩
        · unfold PrivateClient.finalize at finalized
          split at finalized
          · cases finalized
          · rw [kept] at finalized
            cases finalized
        · exact absurd finalized (privateFinalize_moved response moved voprfKey token)
    · cases finalized
  · cases finalized

/-- A batch of responses is finalized as a whole: there is one for each context, and each token is an
RSA token that answers the request at its index and is certified under a held key with its id. -/
theorem finalizeBatch_sound {contexts : List TokenRequestContext} {responses : List TokenResponse}
    (prepared : ∀ context ∈ contexts, ∃ (provider : TokenProvider) (draws : ProviderDraws)
      (challenge : TokenChallenge), provider.prepareRequest draws challenge = .ok context) {tokens : List Token}
    (finalized : later.finalizeBatch walk responses contexts = .ok tokens) :
    responses.length = contexts.length ∧ tokens.length = contexts.length ∧
    ∀ (index : Nat) (context : TokenRequestContext) (token : Token),
      contexts[index]? = some context → tokens[index]? = some token →
      (token.tokenType = .blindRsa ∨ token.tokenType = .partiallyBlindRsa) ∧
      ∃ name key rsaKey, later.Holds name key ∧ key.keyId = token.tokenKeyId ∧
        BlindRsaPublicKey.fromSpki key.data = .ok rsaKey ∧
        Certified context.finalizationData rsaKey token := by
  unfold finalizeBatch at finalized
  split at finalized
  · cases finalized
  · next same =>
      have same := not_not.mp same
      obtain ⟨length, each⟩ := List.forall₂_iff_get.mp (Result.mapM_eq_ok.mp finalized)
      rw [List.length_zip, same, Nat.min_self] at length
      refine ⟨same, length.symm, ?_⟩
      intro index context token contextAt tokenAt
      obtain ⟨inside, rfl⟩ := List.getElem?_eq_some_iff.mp contextAt
      obtain ⟨within, rfl⟩ := List.getElem?_eq_some_iff.mp tokenAt
      have step := each index (by rw [List.length_zip, same, Nat.min_self]; exact inside) within
      simp only [List.get_eq_getElem, List.getElem_zip] at step
      obtain ⟨provider, draws, challenge, asked⟩ := prepared _ (List.getElem_mem inside)
      exact finalize_sound asked step

end Soundness

end Provider

section Instances

open MultiKeyIssuer (sharedBackend sharedBackend_hashes sharedBackend_conforms sharedKeyId sharedKey_pair)

abbrev recordedProvider : TokenProvider := sharedProvider .blindRsa recordedModulus

abbrev recordedWalk : recordedProvider.Walk := ⟨_, .refl _⟩

/-- The walk takes the only key of the provider. -/
theorem recordedWalk_takes : @Walk.Takes sharedBackend recordedProvider recordedWalk
    (sharedPublicKey .blindRsa recordedModulus) := by
  refine @takes_of_hashed sharedBackend recordedProvider _ (sharedPublicKey_hashed _ _) ?_ ?_ _
  · intro name other holds
    rw [holds_single holds]
    exact sharedPublicKey_hashed _ _
  · intro name other holds same
    rw [holds_single holds]

/-- The provider prepares any number of requests with the shared draws. -/
theorem recordedProvider_prepares (count : Nat) : ∃ context,
    @prepareRequest sharedBackend recordedProvider sharedProviderDraws (sharedChallenge .blindRsa) =
      .ok context ∧
    @prepareBatchRequest sharedBackend recordedProvider (fun _ => sharedProviderDraws)
      (sharedChallenge .blindRsa) count = .ok (List.replicate count context) := by
  obtain ⟨context, response, prepared, -⟩ :=
    sharedProvider_prepares recorded_exponents recordedModulus_bits (.inl rfl)
  refine ⟨context, prepared, Result.mapM_eq_ok.mpr ?_⟩
  refine List.forall₂_iff_get.mpr ⟨by simp, ?_⟩
  intro index inside within
  simpa using prepared

/-- A batch of two requests is exchanged, and a batch of 254 requests is not. -/
theorem exchangeBatch_iff_recorded : ∃ context,
    (∃ tokens, @exchangeBatch sharedBackend recordedProvider recordedWalk
      (@PublicIssuer.create sharedBackend.toRsaBackend
        ⟨some (pssKey recordedModulus (some recordedExponent))⟩) (List.replicate 2 context) = .ok tokens) ∧
    ¬ ∃ tokens, @exchangeBatch sharedBackend recordedProvider recordedWalk
      (@PublicIssuer.create sharedBackend.toRsaBackend
        ⟨some (pssKey recordedModulus (some recordedExponent))⟩) (List.replicate 254 context) =
          .ok tokens := by
  have prepares (count : Nat) := recordedProvider_prepares count
  obtain ⟨context, single, -⟩ := prepares 0
  have batch (count : Nat) : @prepareBatchRequest sharedBackend recordedProvider
      (fun _ => sharedProviderDraws) (sharedChallenge .blindRsa) count =
        .ok (List.replicate count context) := by
    obtain ⟨other, again, whole⟩ := prepares count
    rwa [Except.ok.inj (single.symm.trans again)]
  have settled (count : Nat) := (@exchangeBatch_iff sharedBackend recordedProvider recordedProvider
    (sharedChallenge .blindRsa) sharedBackend_hashes sharedBackend_conforms _ _ _ _ _
    (sharedKey_pair recorded_exponents recordedModulus_bits) rfl (sharedProvider_findKey _ _)
    (fun _ => sharedProviderDraws) count (fun _ _ => List.length_replicate) _ (batch count)
    (holds_of_findKey (sharedProvider_findKey _ _)).1 recordedWalk recordedWalk_takes).1
  exact ⟨context, (settled 2).mpr (by decide), fun success => absurd ((settled 254).mp success) (by decide)⟩

/-- The token of a finalized batch is certified under the recorded key. -/
theorem finalizeBatch_sound_recorded : ∃ (context : TokenRequestContext) (token : Token)
    (rsaKey : BlindRsaPublicKey), @Certified sharedBackend.toRsaBackend context.finalizationData rsaKey token := by
  obtain ⟨context, prepared, -⟩ := recordedProvider_prepares 1
  obtain ⟨-, -, -, -, -, -, signature, token, -, -, -, finalizes⟩ :=
    @prepareRequest_answered sharedBackend recordedProvider (sharedChallenge .blindRsa)
      sharedBackend_hashes sharedBackend_conforms _ _ _ _ _
      (sharedKey_pair recorded_exponents recordedModulus_bits) rfl (sharedProvider_findKey _ _)
      sharedProviderDraws List.length_replicate _ prepared
  have finalized := finalizes recordedProvider (holds_of_findKey (sharedProvider_findKey _ _)).1
    recordedWalk recordedWalk_takes
  have batch : @finalizeBatch sharedBackend recordedProvider recordedWalk [.createBlindRsa signature]
      [context] = .ok [token] := by
    rw [@finalizeBatch.eq_1 sharedBackend, if_neg (by simp), Result.mapM_eq_ok]
    exact .cons finalized .nil
  obtain ⟨-, -, each⟩ := @finalizeBatch_sound sharedBackend recordedProvider recordedWalk [context] _
    (fun other member => ⟨recordedProvider, sharedProviderDraws, sharedChallenge .blindRsa,
      by rw [List.mem_singleton.mp member]; exact prepared⟩) _ batch
  obtain ⟨-, name, key, rsaKey, -, -, -, certified⟩ := each 0 context token rfl rfl
  exact ⟨context, token, rsaKey, certified⟩

end Instances

end TokenProvider
end PrivacyPass
