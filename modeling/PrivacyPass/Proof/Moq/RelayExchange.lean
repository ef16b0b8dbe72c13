import PrivacyPass.Proof.Deployment
import PrivacyPass.Proof.Moq.Relay

/-
This file follows a token from the challenge of a relay to the action that it is granted.
-/

namespace PrivacyPass.Moq.MoqRelay

open Library Crypto Http Deployment

section Exchange

variable [IssuanceBackend] {relayName issuerName : Bytes} {history : List ((Nat × Call) × Answer)}
  {relay : MoqRelay} {required : AuthorizationInfo} {challenge : TokenChallenge}

/-- A client that answers the challenge of a relay is given a token by the issuer, and every later
state of the relay that holds the issuer's key and has not seen the token's nonce grants exactly the
actions of the required info. -/
theorem exchange_authorized (hashes : HashesSucceed) (pss : PssConforms) {secret issued : EvpPkey}
    {d : Nat} {spki : Bytes} {keyId : TokenKeyId} (pair : IssuerKeyPair secret issued d spki keyId)
    {key : PublicKey} (keyed : key.data = spki)
    (rsa : key.type = .blindRsa ∨ key.type = .partiallyBlindRsa) {draws : ProviderDraws}
    (salt : draws.salt.length = saltLength) (encodable : required.Encodable)
    (created : relay.createChallenge required = .ok challenge) (deliverable : challenge.Deliverable)
    {tokenKey : Bytes} {maxAge : Option UInt32} {wwwAuthenticate bytes : Bytes} {data : FinalizationData}
    (written : buildWwwAuthenticate challenge tokenKey maxAge = .ok wwwAuthenticate)
    (answered : answerChallenge key draws wwwAuthenticate = .ok (bytes, data)) :
    ∃ response authorization token, answerRequest (.create ⟨some secret⟩) bytes = .ok response ∧
      answerResponse key data response = .ok authorization ∧
      parseAuthorization authorization = .ok token ∧ draws.nonce = some token.nonce ∧
      ∀ later, machine.Runs Machine.clocked (create relayName issuerName) history later →
        token.nonce ∉ (spendings history).map NonceEntry.nonce →
        ∀ held, (reference relayName issuerName history).HoldsKey keyId held → held.pkey = some issued →
        ∀ tick action ns track, (later.verifyAndAuthorize tick token challenge action ns track).1 =
          if required.authorizes action ns track = true then .success required
          else .failure .scopeMismatch ("Token does not authorize " ++ actionName action) := by
  obtain ⟨response, authorization, token, requested, responded, parsed, typed, drawn, named, certified,
    digests⟩ := answerChallenge_answered hashes pss pair keyed rsa salt answered
  refine ⟨response, authorization, token, requested, responded, parsed, drawn, ?_⟩
  intro later runs unspent held holds same tick action ns track
  rw [createChallenge_eq] at created
  obtain rfl := Except.ok.inj created
  have digested := digests _ tokenKey maxAge deliverable (TokenChallenge.coherent_create _ _ _ _) written
  rw [← named] at holds
  have verified := certified.accepted typed digested holds same.symm
  exact verifyAndAuthorize_fresh runs unspent verified rfl
    (AuthorizationInfo.decodeFromOriginInfo_encode encodable) tick action ns track

end Exchange

section Instances

open MultiKeyIssuer (sharedBackend sharedBackend_hashes sharedBackend_conforms sharedKeyId sharedKey_pair
  sharedDraws sharedDraws_invertible sharedRsaKey sharedRsaKey_parsed)
open TokenProvider (sharedPublicKey sharedProviderDraws)

theorem publisherChallenge_deliverable : publisherChallenge.Deliverable where
  typed := .inl rfl
  named := by decide
  short := by decide
  few := by decide
  entries := by decide
  fits := by decide

/-- The unified client asks with the shared key for every Blind RSA challenge that has a digest. -/
theorem sharedKey_asks {n d : Nat} (exponents : BlindSignature.RsaExponents n 65537 d)
    (bits : bnNumBits n = rsaBits) {challenge : TokenChallenge} (typed : challenge.tokenType = .blindRsa)
    {digest : ChallengeDigest}
    (digested : (@TokenChallenge.digest sharedBackend.toHashBackend challenge).1 = .ok digest) :
    ∃ result, @Client.createTokenRequest sharedBackend sharedProviderDraws challenge
      (sharedPublicKey .blindRsa n) = .ok result := by
  have pair := sharedKey_pair exponents bits
  have invertible := sharedDraws_invertible (show Odd (pssKey n none).n from exponents.odd)
  obtain ⟨blinding, signature, authenticator, -, -, -, issued, accepted⟩ :=
    @IssuerKeyPair.issue_finalize sharedBackend.toRsaBackend _ _ _ _ _ sharedBackend_hashes
      sharedBackend_conforms pair challenge (.inl typed) sharedDraws _ rfl _ digested
      List.length_replicate invertible
  obtain ⟨-, -, created, -⟩ := accepted ⟨some (pssKey n none), pssSpki n⟩ rfl
  have created := created (@IssuerKeyPair.keyId_eq sharedBackend.toRsaBackend _ _ _ _ _ pair)
  exact ⟨_, (@Client.createTokenRequest_of_rsa sharedBackend sharedProviderDraws challenge
    (sharedPublicKey .blindRsa n) (.inl typed) typed _ (sharedRsaKey_parsed exponents bits)).trans created⟩

/-- The client answers the header of the publisher's challenge. -/
theorem publisherChallenge_answered {n d : Nat} (exponents : BlindSignature.RsaExponents n 65537 d)
    (bits : bnNumBits n = rsaBits) : ∃ text bytes data,
      buildWwwAuthenticate publisherChallenge [] none = .ok text ∧
      @answerChallenge sharedBackend (sharedPublicKey .blindRsa n) sharedProviderDraws text =
        .ok (bytes, data) := by
  obtain ⟨bytes, nonempty, serialized, delivered, again⟩ := publisherChallenge_deliverable.deserialize
  obtain ⟨text, header, built, parsed, decoded, -⟩ :=
    buildWwwAuthenticate_parse [] none serialized nonempty
  rw [delivered] at decoded
  have digested := @TokenChallenge.Coherent.digest_eq sharedBackend.toHashBackend _
    (@TokenChallenge.coherent_create sharedBackend.toHashBackend _ _ _ _) _ _ again rfl
  obtain ⟨result, asked⟩ := sharedKey_asks exponents bits rfl digested
  refine ⟨text, result.request.wire, result.finalizationData, built, ?_⟩
  rw [@answerChallenge.eq_1 sharedBackend, Result.bind_ok parsed, Result.bind_ok decoded]
  refine (Result.bind_ok asked).trans ?_
  rw [TokenRequest.serialize_eq]
  rfl

/-- A relay that was given the shared key. -/
def sharedHistory (n : Nat) : List ((Nat × Call) × Answer) :=
  [((0, .addTrustedIssuer (sharedRsaKey n)), .done)]

theorem sharedHistory_runs (relayName issuerName : Bytes) (n : Nat) :
    (@machine sharedBackend.toCryptoBackend).Runs Machine.clocked
      (@create sharedBackend.toCryptoBackend relayName issuerName) (sharedHistory n)
      (@addTrustedIssuer sharedBackend.toCryptoBackend
        (@create sharedBackend.toCryptoBackend relayName issuerName) (sharedRsaKey n)) :=
  (Machine.Runs.start : (@machine sharedBackend.toCryptoBackend).Runs Machine.clocked
    (@create sharedBackend.toCryptoBackend relayName issuerName) [] _).next (by simp [Machine.clocked]) rfl

theorem sharedHistory_unspent (n : Nat) (nonce : Nonce) :
    nonce ∉ (spendings (sharedHistory n)).map NonceEntry.nonce := by
  simp [sharedHistory, spendings, spending]

/-- The relay finds the shared key under its id. -/
theorem sharedHistory_holds (relayName issuerName : Bytes) {n d : Nat}
    (exponents : BlindSignature.RsaExponents n 65537 d) (bits : bnNumBits n = rsaBits) :
    @PublicOrigin.HoldsKey (@reference sharedBackend.toCryptoBackend relayName issuerName (sharedHistory n))
      (sharedKeyId n) (sharedRsaKey n) := by
  have named := @IssuerKeyPair.keyId_eq sharedBackend.toRsaBackend _ _ _ _ _ (sharedKey_pair exponents bits)
  obtain ⟨config, same⟩ := @reference_shared _ _ exponents bits relayName issuerName (sharedHistory n) rfl
  rw [same]
  exact (@PublicOrigin.holdsKey_addIssuerKey sharedBackend.toRsaBackend _ _ _ _ _ named).mpr
    (by rw [if_pos rfl, sharedRsaKey])

/-- The publisher is granted its action with a token of the shared key. -/
theorem exchange_authorized_publisher : ∃ token : Token,
    (@verifyAndAuthorize sharedBackend.toCryptoBackend (sharedRelay recordedModulus) 1 token
      publisherChallenge .publish [[0x61]] [0x76]).1 = .success publisherInfo := by
  have granted {n d : Nat} (exponents : BlindSignature.RsaExponents n 65537 d)
      (bits : bnNumBits n = rsaBits) : ∃ token : Token,
        (@verifyAndAuthorize sharedBackend.toCryptoBackend (sharedRelay n) 1 token publisherChallenge
          .publish [[0x61]] [0x76]).1 = .success publisherInfo := by
    obtain ⟨text, bytes, data, built, answered⟩ := publisherChallenge_answered exponents bits
    have created : @createChallenge sharedBackend.toCryptoBackend (sharedRelay n) publisherInfo =
        .ok publisherChallenge := @createChallenge_eq sharedBackend.toCryptoBackend _ publisherInfo
    obtain ⟨response, authorization, token, -, -, -, -, grants⟩ :=
      @exchange_authorized sharedBackend [0x72] [0x69] (sharedHistory n) _ publisherInfo publisherChallenge
        sharedBackend_hashes sharedBackend_conforms _ _ _ _ _ (sharedKey_pair exponents bits)
        (sharedPublicKey .blindRsa n) rfl (.inl rfl) sharedProviderDraws List.length_replicate
        publisherInfo_encodable created publisherChallenge_deliverable [] none text bytes data built answered
    refine ⟨token, ?_⟩
    rw [grants _ (sharedHistory_runs _ _ n) (sharedHistory_unspent n _) _
      (sharedHistory_holds _ _ exponents bits) rfl 1 .publish [[0x61]] [0x76], if_pos (by decide)]
  exact granted recorded_exponents recordedModulus_bits

end Instances

end PrivacyPass.Moq.MoqRelay
