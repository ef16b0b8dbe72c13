import PrivacyPass.Construction.UnifiedClient
import PrivacyPass.Proof.Provider.Finalization

/-
This file proves what the unified client makes of a response to its own request.
-/

namespace PrivacyPass

open Library Crypto

/-- The token belongs to the finalization data, and its signature is accepted under the key. -/
structure Certified [RsaBackend] (data : FinalizationData) (key : BlindRsaPublicKey) (token : Token) :
    Prop where
  typed : token.tokenType = data.tokenType
  nonce : token.nonce = data.nonce
  digest : token.challengeDigest = data.challengeDigest
  named : token.tokenKeyId = data.tokenKeyId
  sized : token.authenticator.length = 256
  verified : key.verify token.authenticatorInput.wire token.authenticator = .ok true

section Rsa

variable [RsaBackend]

/-- An unblinded signature has the size of the modulus and was verified. -/
theorem finalize_verified {key : BlindRsaPublicKey} {signature msg authenticator : Bytes}
    {data : BlindingData} (finalized : (key.finalize signature data msg).1 = .ok authenticator) :
    authenticator.length = 256 ∧ key.verify msg authenticator = .ok true := by
  unfold BlindRsaPublicKey.finalize at finalized
  split at finalized
  · cases finalized
  split at finalized
  · cases finalized
  dsimp only at finalized
  split at finalized
  · cases finalized
  · next size =>
      split at finalized
      · cases finalized
      split at finalized
      · cases finalized
      split at finalized
      · cases finalized
      split at finalized
      · next verified =>
          obtain rfl := Except.ok.inj finalized
          refine ⟨?_, verified⟩
          rw [BigEndian.toBytes_length, not_not.mp size]
          rfl
      · cases finalized

/-- Whatever the response contains, the token that the client makes of it is certified. -/
theorem PublicClient.finalize_certified {response : TokenResponse} {data : FinalizationData}
    {key : BlindRsaPublicKey} {token : Token} (finalized : finalize response data key = .ok token) :
    Certified data key token := by
  unfold finalize at finalized
  split at finalized
  · cases finalized
  split at finalized
  · cases finalized
  · obtain ⟨bytes, serialized, signed⟩ := Result.bind_eq_ok.mp finalized
    obtain ⟨authenticator, unblinded, made⟩ := Result.bind_eq_ok.mp signed
    rw [AuthenticatorInput.serialize_eq] at serialized
    obtain rfl := Except.ok.inj serialized
    obtain rfl := Except.ok.inj made
    obtain ⟨sized, verified⟩ := finalize_verified unblinded
    exact ⟨rfl, rfl, rfl, rfl, sized, verified⟩

/-- The finalization data of a request belong to the challenge, the drawn nonce and the key. -/
theorem PublicClient.createTokenRequest_data {draws : RequestDraws} {challenge : TokenChallenge}
    {key : BlindRsaPublicKey} {result : TokenRequestResult}
    (created : createTokenRequest draws challenge key = .ok result) :
    result.finalizationData.tokenType = challenge.tokenType ∧
      draws.nonce = some result.finalizationData.nonce ∧
      challenge.digest.1 = .ok result.finalizationData.challengeDigest ∧
      key.keyId = .ok result.finalizationData.tokenKeyId := by
  obtain ⟨nonce, drawn, digesting⟩ := Result.bind_eq_ok.mp created
  obtain ⟨digest, digested, identifying⟩ := Result.bind_eq_ok.mp digesting
  obtain ⟨keyId, identified, serializing⟩ := Result.bind_eq_ok.mp identifying
  obtain ⟨bytes, -, blinding⟩ := Result.bind_eq_ok.mp serializing
  obtain ⟨blinded, -, made⟩ := Result.bind_eq_ok.mp blinding
  obtain rfl := Except.ok.inj made
  refine ⟨rfl, ?_, digested, identified⟩
  unfold randomNonce at drawn
  split at drawn
  · next given =>
      obtain rfl := Except.ok.inj drawn
      exact given
  · cases drawn

/-- A certified token is certified under every key object with the same key of the library. -/
theorem Certified.of_pkey {data : FinalizationData} {left right : BlindRsaPublicKey} {token : Token}
    (certified : Certified data left token) (same : left.pkey = right.pkey) :
    Certified data right token := by
  obtain ⟨typed, nonce, digest, named, sized, verified⟩ := certified
  refine ⟨typed, nonce, digest, named, sized, ?_⟩
  rw [← verified, BlindRsaPublicKey.verify, BlindRsaPublicKey.verify, same]

/-- The issuer answers every request for a Blind RSA token under its key, and every key object with
its public key makes the same certified token of the answer. -/
theorem IssuerKeyPair.answers (hashes : HashesSucceed) (pss : PssConforms) {secret issued : EvpPkey}
    {d : Nat} {spki : Bytes} {keyId : TokenKeyId} (pair : IssuerKeyPair secret issued d spki keyId)
    {draws : RequestDraws} (salted : draws.salt.length = saltLength) {challenge : TokenChallenge}
    (typed : challenge.tokenType = .blindRsa ∨ challenge.tokenType = .partiallyBlindRsa)
    {key : BlindRsaPublicKey} (held : key.pkey = some issued) (named : key.keyId = .ok keyId)
    {result : TokenRequestResult}
    (created : PublicClient.createTokenRequest draws challenge key = .ok result) :
    result.request.Sized ∧ result.request.tokenType = challenge.tokenType ∧
    ∃ signature token, signature.length = 256 ∧
      (PublicIssuer.create ⟨some secret⟩).issue result.request = .ok (.createBlindRsa signature) ∧
      ∀ taken : BlindRsaPublicKey, taken.pkey = some issued →
        Certified result.finalizationData taken token ∧ ∀ type,
          PublicClient.finalize ⟨type, .blindRsa ⟨signature⟩⟩ result.finalizationData taken = .ok token := by
  obtain ⟨nonce, digest, other, blinding, digested, identified, blinded, rfl⟩ :=
    PublicClient.createTokenRequest_eq_ok created
  obtain rfl := Except.ok.inj (named.symm.trans identified)
  obtain ⟨fresh, signature, authenticator, blindedSize, signatureSize, sized, signed, accepted⟩ :=
    blind_sign_finalize hashes pss pair.isPssKey pair.exponents pair.modulus
      pair.known (AuthenticatorInput.wire ⟨challenge.tokenType, nonce, digest, keyId⟩) salted
      (blind_invertible held blinded)
  obtain rfl := Except.ok.inj ((accepted key held).1.symm.trans blinded)
  refine ⟨blindedSize.trans (blindRsa_sizes typed).1.symm, rfl, signature,
    ⟨challenge.tokenType, nonce, digest, keyId, authenticator⟩, signatureSize, ?_, ?_⟩
  · rw [pair.create]
    exact PublicIssuer.issue_signed typed rfl signed
  · intro taken same
    obtain ⟨-, verified, unblinded⟩ := accepted taken same
    exact ⟨⟨rfl, rfl, rfl, rfl, sized, verified⟩, fun type => PublicClient.finalize_ok (unblinded [])⟩

/-- An origin that holds the key accepts a certified token against every challenge with its digest. -/
theorem Certified.accepted {data : FinalizationData} {key held : BlindRsaPublicKey} {token : Token}
    (certified : Certified data key token)
    (typed : token.tokenType = .blindRsa ∨ token.tokenType = .partiallyBlindRsa)
    {challenge : TokenChallenge} (digested : challenge.digest.1 = .ok token.challengeDigest)
    {origin : PublicOrigin} (holds : origin.HoldsKey token.tokenKeyId held)
    (same : key.pkey = held.pkey) : origin.verify token challenge = .ok true :=
  PublicOrigin.verify_signed typed certified.sized digested holds (certified.of_pkey same).verified

/-- A certified token of an RSA type crosses the wire in its header. -/
theorem Certified.delivered {data : FinalizationData} {key : BlindRsaPublicKey} {token : Token}
    (certified : Certified data key token)
    (typed : token.tokenType = .blindRsa ∨ token.tokenType = .partiallyBlindRsa) :
    ∃ text, Http.buildAuthorization token = .ok text ∧ Http.parseAuthorization text = .ok token := by
  obtain ⟨-, authenticatorSize, valid⟩ := blindRsa_sizes typed
  have sized : token.Sized := ⟨valid, certified.sized.trans authenticatorSize.symm⟩
  obtain ⟨text, built, parsed⟩ :=
    Http.buildAuthorization_parse (Token.serialize_eq token) token.wire_ne_nil
  rw [Token.deserialize_wire sized] at parsed
  exact ⟨text, built, parsed⟩

end Rsa

namespace Client

variable [IssuanceBackend] {draws : ProviderDraws} {challenge : TokenChallenge} {key : PublicKey}
  {result : TokenRequestResult}

/-- A request of the unified client is a request of the client for its type. -/
theorem createTokenRequest_eq_ok (created : createTokenRequest draws challenge key = .ok result) :
    challenge.tokenType = key.type ∧
      ((challenge.tokenType = .blindRsa ∨ challenge.tokenType = .partiallyBlindRsa) ∧
          (∃ rsaKey, BlindRsaPublicKey.fromSpki key.data = .ok rsaKey ∧
            PublicClient.createTokenRequest draws.toRequestDraws challenge rsaKey = .ok result) ∨
        challenge.tokenType = .voprfP384Sha384 ∧
          ∃ voprfKey, PrivateClient.createTokenRequest ⟨draws.nonce, draws.scalar⟩ challenge voprfKey =
            .ok result) := by
  unfold createTokenRequest at created
  split at created
  · cases created
  · next same =>
      refine ⟨not_not.mp same, ?_⟩
      split at created
      · next typed =>
          obtain ⟨rsaKey, parsed, created⟩ := Result.bind_eq_ok.mp created
          exact .inl ⟨typed, rsaKey, parsed, created⟩
      split at created
      · next typed =>
          obtain ⟨voprfKey, -, created⟩ := Result.bind_eq_ok.mp created
          exact .inr ⟨typed, voprfKey, created⟩
      · cases created

theorem createTokenRequest_of_rsa
    (typed : challenge.tokenType = .blindRsa ∨ challenge.tokenType = .partiallyBlindRsa)
    (same : challenge.tokenType = key.type) {rsaKey : BlindRsaPublicKey}
    (parsed : BlindRsaPublicKey.fromSpki key.data = .ok rsaKey) :
    createTokenRequest draws challenge key =
      PublicClient.createTokenRequest draws.toRequestDraws challenge rsaKey := by
  rw [createTokenRequest, if_neg (not_not.mpr same), if_pos typed, Result.bind_ok parsed]

/-- The client for VOPRF tokens gives its blinded element away, and so it finalizes no request. -/
theorem finalize_moved (created : createTokenRequest draws challenge key = .ok result)
    (typed : challenge.tokenType = .voprfP384Sha384) (response : TokenResponse) (token : Token) :
    finalize response result.finalizationData key ≠ .ok token := by
  obtain ⟨-, ⟨rsa, -⟩ | ⟨-, voprfKey, made⟩⟩ := createTokenRequest_eq_ok created
  · rw [typed] at rsa
    exact absurd rsa (by decide)
  · obtain ⟨-, -, scalar, input, moved⟩ := TokenProvider.privateRequest_eq_ok made
    intro finalized
    unfold finalize at finalized
    split at finalized
    · obtain ⟨rsaKey, -, unblinded⟩ := Result.bind_eq_ok.mp finalized
      unfold PublicClient.finalize at unblinded
      split at unblinded
      · cases unblinded
      · rw [moved] at unblinded
        cases unblinded
    split at finalized
    · obtain ⟨key, -, evaluated⟩ := Result.bind_eq_ok.mp finalized
      exact TokenProvider.privateFinalize_moved response moved key token evaluated
    · cases finalized

/-- A token of the client answers its own request: it is of an RSA type and certified under the key. -/
theorem finalize_sound (created : createTokenRequest draws challenge key = .ok result)
    {response : TokenResponse} {token : Token}
    (finalized : finalize response result.finalizationData key = .ok token) :
    (token.tokenType = .blindRsa ∨ token.tokenType = .partiallyBlindRsa) ∧
      token.tokenType = challenge.tokenType ∧ draws.nonce = some token.nonce ∧
      challenge.digest.1 = .ok token.challengeDigest ∧
      ∃ rsaKey, BlindRsaPublicKey.fromSpki key.data = .ok rsaKey ∧
        rsaKey.keyId = .ok token.tokenKeyId ∧ Certified result.finalizationData rsaKey token := by
  obtain ⟨-, ⟨rsa, rsaKey, parsed, made⟩ | ⟨typed, -⟩⟩ := createTokenRequest_eq_ok created
  · obtain ⟨typed, drawn, digested, identified⟩ := PublicClient.createTokenRequest_data made
    rw [finalize, if_pos (by rwa [typed]), Result.bind_ok parsed] at finalized
    have certified := PublicClient.finalize_certified finalized
    rw [← certified.typed] at typed
    rw [← certified.nonce] at drawn
    rw [← certified.digest] at digested
    rw [← certified.named] at identified
    exact ⟨by rwa [typed], typed, drawn, digested, rsaKey, parsed, identified, certified⟩
  · exact absurd finalized (finalize_moved created typed response token)

/-- A token that the unified client makes of any response to its own request is of an RSA type,
belongs to the request and is certified under the key, and the response of the issuer that holds the
private key is finalized exactly when the request is for one of the two RSA types. -/
theorem finalize_created_iff (hashes : HashesSucceed) (pss : PssConforms)
    (salted : draws.salt.length = saltLength)
    (created : createTokenRequest draws challenge key = .ok result) :
    (∀ response token, finalize response result.finalizationData key = .ok token →
      token.tokenType = challenge.tokenType ∧ draws.nonce = some token.nonce ∧
        challenge.digest.1 = .ok token.challengeDigest ∧
        ∃ rsaKey, BlindRsaPublicKey.fromSpki key.data = .ok rsaKey ∧
          rsaKey.keyId = .ok token.tokenKeyId ∧ Certified result.finalizationData rsaKey token) ∧
    ∀ issuer, TokenProvider.Matches key issuer → ∀ issuerDraws response,
      issuer.issue issuerDraws result.request = .ok response →
      ((∃ token, finalize response result.finalizationData key = .ok token) ↔
        challenge.tokenType = .blindRsa ∨ challenge.tokenType = .partiallyBlindRsa) := by
  constructor
  · intro response token finalized
    exact (finalize_sound created finalized).2
  · intro issuer matching issuerDraws response issued
    constructor
    · rintro ⟨token, finalized⟩
      obtain ⟨typed, same, -⟩ := finalize_sound created finalized
      rwa [same] at typed
    · intro typed
      obtain ⟨-, ⟨-, rsaKey, parsed, made⟩ | ⟨voprf, -⟩⟩ := createTokenRequest_eq_ok created
      · obtain ⟨requested, -⟩ := PublicClient.createTokenRequest_data made
        cases issuer with
        | blindRsa secretKey =>
            obtain ⟨secret, pkey, d, spki, issuerKeyId, other, rfl, pair, reread, held⟩ := matching
            obtain rfl := Except.ok.inj (parsed.symm.trans reread)
            obtain ⟨-, token, -, -, finalized⟩ :=
              TokenProvider.finalize_created hashes pss pair salted held made issued
            refine ⟨token, ?_⟩
            rw [finalize, if_pos (by rwa [requested]), Result.bind_ok parsed]
            exact finalized rsaKey held
        | voprf secretKey memory =>
            obtain ⟨nonce, digest, keyId, blinding, -, -, -, rfl⟩ :=
              PublicClient.createTokenRequest_eq_ok made
            change (PrivateIssuer.create secretKey memory).issue issuerDraws _ = .ok response at issued
            have different : challenge.tokenType ≠ .voprfP384Sha384 := by
              rcases typed with typed | typed <;> rw [typed] <;> decide
            rw [PrivateIssuer.issue, if_pos different] at issued
            cases issued
      · rw [voprf] at typed
        exact absurd typed (by decide)

end Client

section Instances

open MultiKeyIssuer (sharedBackend sharedBackend_hashes sharedBackend_conforms sharedKey)
open TokenProvider (sharedPublicKey sharedProvider sharedProviderDraws sharedChallenge)

/-- The unified client asks for a token of each RSA type, and the issuer answers it. -/
theorem Client.sharedKey_created {n d : Nat} (exponents : BlindSignature.RsaExponents n 65537 d)
    (bits : bnNumBits n = rsaBits) {type : TokenType}
    (typed : type = .blindRsa ∨ type = .partiallyBlindRsa) : ∃ result response,
      @createTokenRequest sharedBackend sharedProviderDraws (sharedChallenge type)
        (sharedPublicKey type n) = .ok result ∧
      @IssuerKey.issue sharedBackend.toCryptoBackend [] result.request (sharedKey n d) =
        .ok response := by
  obtain ⟨context, response, prepared, issued⟩ := TokenProvider.sharedProvider_prepares exponents bits typed
  obtain ⟨key, result, found, request, -, made⟩ := @TokenProvider.prepareRequest_eq_ok sharedBackend
    _ _ _ _ prepared
  have same : (sharedProvider type n).findKey (sharedChallenge type).issuerName
      (sharedChallenge type).tokenType = some (sharedPublicKey type n) :=
    TokenProvider.sharedProvider_findKey type n
  obtain rfl := Option.some.inj (found.symm.trans same)
  rw [request] at issued
  rcases made with ⟨-, rsaKey, parsed, created⟩ | ⟨voprf, -⟩
  · refine ⟨result, response, ?_, issued⟩
    rw [@createTokenRequest_of_rsa sharedBackend _ _ _ typed rfl _ parsed, created]
  · have voprf : type = .voprfP384Sha384 := voprf
    rw [voprf] at typed
    exact absurd typed (by decide)

/-- The unified client finalizes its request for a partially blind token. -/
theorem Client.finalize_created_iff_recorded : ∃ result response token,
    @createTokenRequest sharedBackend sharedProviderDraws (sharedChallenge .partiallyBlindRsa)
      (sharedPublicKey .partiallyBlindRsa recordedModulus) = .ok result ∧
    @IssuerKey.issue sharedBackend.toCryptoBackend [] result.request
      (sharedKey recordedModulus recordedExponent) = .ok response ∧
    @finalize sharedBackend response result.finalizationData
      (sharedPublicKey .partiallyBlindRsa recordedModulus) = .ok token := by
  obtain ⟨result, response, created, issued⟩ :=
    Client.sharedKey_created recorded_exponents recordedModulus_bits (.inr rfl)
  have settled := @finalize_created_iff sharedBackend _ _ _ _ sharedBackend_hashes
    sharedBackend_conforms List.length_replicate created
  obtain ⟨token, finalized⟩ := (settled.2 _
    (TokenProvider.sharedKey_matches recorded_exponents recordedModulus_bits _) [] response issued).mpr
      (.inr rfl)
  exact ⟨result, response, token, created, issued, finalized⟩

end Instances
end PrivacyPass
