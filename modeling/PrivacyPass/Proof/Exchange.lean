import Mathlib.Tactic.NormNum.Prime
import PrivacyPass.Construction.Client
import PrivacyPass.Construction.Issuer
import PrivacyPass.Library.Primality
import PrivacyPass.Library.Pss
import PrivacyPass.Proof.ChallengeAgreement
import PrivacyPass.Proof.Crypto.BlindRsa
import PrivacyPass.Proof.Http.AuthScheme
import PrivacyPass.Proof.Issuer.Batch
import PrivacyPass.Proof.Origin.Verify
import PrivacyPass.Proof.Wire.Token

/-
This file follows one challenge through both headers, the client and the issuer back to the origin.
-/

namespace PrivacyPass

open Library Crypto Http

namespace TokenChallenge

/-- A filled cache holds the digest of the fields. -/
def Coherent [HashBackend] (challenge : TokenChallenge) : Prop :=
  ∀ digest ∈ challenge.cachedDigest, ∀ bytes, challenge.serialize = .ok bytes → sha256 bytes = .ok digest

theorem coherent_create [HashBackend] (type : TokenType) (issuer : Bytes)
    (context : Option ChallengeDigest) (origins : List Bytes) :
    (create type issuer context origins).Coherent := by
  intro digest member
  cases member

/-- The computation of the digest fills the cache with it. -/
theorem Coherent.digest [HashBackend] {challenge : TokenChallenge} (coherent : challenge.Coherent) :
    challenge.digest.2.Coherent := by
  unfold TokenChallenge.digest
  split
  · exact coherent
  · split
    · exact coherent
    · next bytes serialized =>
        split
        · next hash hashed =>
            intro digest member other again
            cases member
            have same : challenge.serialize = .ok other := again
            rw [serialized] at same
            rw [← Except.ok.inj same, hashed]
        · exact coherent

/-- The digest of a coherent challenge is the hash of its encoding. -/
theorem Coherent.digest_eq [HashBackend] {challenge : TokenChallenge} (coherent : challenge.Coherent)
    {bytes : Bytes} {hash : Hash256} (serialized : challenge.serialize = .ok bytes)
    (hashed : sha256 bytes = .ok hash) : challenge.digest.1 = .ok hash := by
  unfold TokenChallenge.digest
  cases cached : challenge.cachedDigest with
  | none => simp only [serialized, hashed]
  | some digest =>
      have same := coherent digest cached bytes serialized
      rw [hashed] at same
      exact same.symm

/-- A challenge for a Blind RSA token is delivered when its fields fit and its entries can be told
apart on the wire. -/
structure Deliverable (challenge : TokenChallenge) : Prop where
  typed : challenge.tokenType = .blindRsa ∨ challenge.tokenType = .partiallyBlindRsa
  named : challenge.issuerName ≠ []
  short : challenge.issuerName.length ≤ 65535
  few : challenge.originInfo.length ≤ maxOriginEntries
  entries : ∀ entry ∈ challenge.originInfo, entry ≠ [] ∧ comma ∉ entry
  fits : challenge.originInfoString.length ≤ 65535

/-- The decoded challenge has the fields of the original. -/
def received (challenge : TokenChallenge) : TokenChallenge :=
  create challenge.tokenType challenge.issuerName challenge.redemptionContext challenge.originInfo

/-- A deliverable challenge comes back from the wire, and its digest is the digest of the original. -/
theorem Deliverable.deserialize {challenge : TokenChallenge} (deliverable : challenge.Deliverable) :
    ∃ bytes, bytes ≠ [] ∧ challenge.serialize = .ok bytes ∧
      TokenChallenge.deserialize bytes = .ok challenge.received ∧
      challenge.received.serialize = .ok bytes := by
  obtain ⟨-, named, short, few, entries, fits⟩ := deliverable
  have split : splitOriginInfo [] challenge.originInfoString = .ok challenge.originInfo :=
    splitOriginInfo_join (fun entry member => (entries entry member).2)
      (fun entry member => (entries entry member).1) (by simpa using few)
  refine ⟨_, List.cons_ne_nil _ _, serialize_ok ⟨named, short, fits⟩, ?_, ?_⟩
  · exact deserialize_wire named short fits split
  · have encodable : challenge.received.Encodable := ⟨named, short, fits⟩
    exact serialize_ok encodable

end TokenChallenge

/-- An issuer holds the secret key, and everybody reads the public key from its encoding. -/
structure IssuerKeyPair [RsaBackend] (secret issued : EvpPkey) (d : Nat) (spki : Bytes)
    (keyId : TokenKeyId) : Prop where
  exponents : BlindSignature.RsaExponents issued.n issued.e d
  known : secret.d = some d
  modulus : secret.n = issued.n
  marshalled : RsaBackend.marshalPublicKey secret = some spki
  nonempty : spki ≠ []
  short : spki.length ≤ maxInputSize
  parsed : RsaBackend.parsePublicKeySpki spki = some issued
  valid : validateRsaParams issued rsaBits rsaPublicExponent = .ok ()
  hashed : HashBackend.evpSha256 spki = some keyId

theorem IssuerKeyPair.isPssKey [RsaBackend] {secret issued : EvpPkey} {d : Nat} {spki : Bytes}
    {keyId : TokenKeyId} (pair : IssuerKeyPair secret issued d spki keyId) : IsPssKey issued :=
  ⟨pair.valid, pair.exponents.odd⟩

/-- The parties of one exchange with their inputs and their draws. -/
structure Exchange where
  issuer : PublicIssuer
  clientKey : BlindRsaPublicKey
  origin : PublicOrigin
  challenge : TokenChallenge
  tokenKey : Bytes
  maxAge : Option UInt32
  draws : RequestDraws

namespace Exchange

/-- Every message of the exchange crosses the wire, and the origin checks the token against the
challenge that it has sent. -/
def run [RsaBackend] (exchange : Exchange) : Result Bool := do
  let wwwAuthenticate ←
    buildWwwAuthenticate exchange.challenge exchange.tokenKey exchange.maxAge
  let header ← ChallengeHeader.parse wwwAuthenticate
  let challenge ← header.decodeChallenge
  let created ← PublicClient.createTokenRequest exchange.draws challenge exchange.clientKey
  let requestBytes ← created.request.serialize
  let request ← TokenRequest.deserialize requestBytes
  let response ← exchange.issuer.issue request
  let responseBytes ← response.serialize
  let response ← TokenResponse.deserialize request.tokenType responseBytes
  let token ← PublicClient.finalize response created.finalizationData exchange.clientKey
  let authorization ← buildAuthorization token
  let token ← parseAuthorization authorization
  exchange.origin.verify token exchange.challenge

end Exchange

section Honest

variable [RsaBackend] {secret issued : EvpPkey} {d : Nat} {spki : Bytes} {keyId : TokenKeyId}

/-- The issuer publishes the parsed key. -/
theorem IssuerKeyPair.publicKey_eq (pair : IssuerKeyPair secret issued d spki keyId) :
    (⟨some secret⟩ : BlindRsaPrivateKey).publicKey = .ok ⟨some issued, spki⟩ := by
  have read : BlindRsaPublicKey.fromSpki spki = .ok ⟨some issued, spki⟩ := by
    rw [BlindRsaPublicKey.fromSpki, if_neg (Nat.not_lt.mpr pair.short)]
    simp only [pair.parsed, pair.valid]
  rw [BlindRsaPrivateKey.publicKey]
  simp only [marshalPublicKey, pair.marshalled, read]

/-- The id of the published key is the hash of its encoding. -/
theorem IssuerKeyPair.keyId_eq (pair : IssuerKeyPair secret issued d spki keyId) :
    (⟨some issued, spki⟩ : BlindRsaPublicKey).keyId = .ok keyId := by
  rw [BlindRsaPublicKey.keyId, if_neg (by simpa using pair.nonempty), sha256]
  simp only [pair.hashed]

theorem IssuerKeyPair.create (pair : IssuerKeyPair secret issued d spki keyId) :
    PublicIssuer.create ⟨some secret⟩ = ⟨⟨some secret⟩, ⟨some issued, spki⟩, keyId, truncatedKeyId keyId⟩ := by
  rw [PublicIssuer.create]
  simp only [pair.publicKey_eq, pair.keyId_eq]

/-- The client asks for a token over the blinded input of its authenticator. -/
theorem PublicClient.createTokenRequest_ok {draws : RequestDraws} {challenge : TokenChallenge}
    {key : BlindRsaPublicKey} {nonce : Nonce} {digest : ChallengeDigest} {blinding : BlindingData}
    (drawn : draws.nonce = some nonce) (digested : challenge.digest.1 = .ok digest)
    (identified : key.keyId = .ok keyId)
    (blinded : key.blind (AuthenticatorInput.wire ⟨challenge.tokenType, nonce, digest, keyId⟩)
      draws.salt draws.factors = .ok blinding) :
    createTokenRequest draws challenge key =
      .ok ⟨⟨challenge.tokenType, truncatedKeyId keyId, blinding.blindedMsg⟩,
        ⟨challenge.tokenType, nonce, digest, keyId, .blindRsa ⟨blinding.inverse, []⟩⟩⟩ := by
  have random : randomNonce draws.nonce = .ok nonce := by
    rw [drawn, randomNonce]
  rw [createTokenRequest, Result.bind_ok random, Result.bind_ok digested, Result.bind_ok identified,
    Result.bind_ok (AuthenticatorInput.serialize_eq _), Result.bind_ok blinded]
  rfl

/-- A request of the client asks with the blinded input of its authenticator, and the blinded message
is not kept. -/
theorem PublicClient.createTokenRequest_eq_ok {draws : RequestDraws} {challenge : TokenChallenge}
    {key : BlindRsaPublicKey} {result : TokenRequestResult}
    (created : createTokenRequest draws challenge key = .ok result) :
    ∃ nonce digest keyId blinding, challenge.digest.1 = .ok digest ∧ key.keyId = .ok keyId ∧
      key.blind (AuthenticatorInput.wire ⟨challenge.tokenType, nonce, digest, keyId⟩) draws.salt
        draws.factors = .ok blinding ∧
      result = ⟨⟨challenge.tokenType, truncatedKeyId keyId, blinding.blindedMsg⟩,
        ⟨challenge.tokenType, nonce, digest, keyId, .blindRsa ⟨blinding.inverse, []⟩⟩⟩ := by
  obtain ⟨nonce, -, created⟩ := Result.bind_eq_ok.mp created
  obtain ⟨digest, digested, created⟩ := Result.bind_eq_ok.mp created
  obtain ⟨keyId, identified, created⟩ := Result.bind_eq_ok.mp created
  obtain ⟨bytes, serialized, created⟩ := Result.bind_eq_ok.mp created
  obtain ⟨blinding, blinded, created⟩ := Result.bind_eq_ok.mp created
  rw [AuthenticatorInput.serialize_eq] at serialized
  rw [← Except.ok.inj serialized] at blinded
  exact ⟨nonce, digest, keyId, blinding, digested, identified, blinded, (Except.ok.inj created).symm⟩

/-- The client builds its token from the unblinded signature. -/
theorem PublicClient.finalize_ok {key : BlindRsaPublicKey} {type responseType : TokenType}
    {nonce : Nonce} {digest : ChallengeDigest} {inverse signature authenticator : Bytes}
    (unblinded : (key.finalize signature ⟨inverse, []⟩
      (AuthenticatorInput.wire ⟨type, nonce, digest, keyId⟩)).1 = .ok authenticator) :
    finalize ⟨responseType, .blindRsa ⟨signature⟩⟩ ⟨type, nonce, digest, keyId, .blindRsa ⟨inverse, []⟩⟩
      key = .ok ⟨type, nonce, digest, keyId, authenticator⟩ := by
  rw [finalize]
  simp only [TokenResponse.asBlindRsa]
  rw [Result.bind_ok (AuthenticatorInput.serialize_eq _), Result.bind_ok unblinded]
  rfl

theorem PublicClient.finalize_error {key : BlindRsaPublicKey} {type responseType : TokenType}
    {nonce : Nonce} {digest : ChallengeDigest} {inverse signature : Bytes} {error : Error}
    (refused : (key.finalize signature ⟨inverse, []⟩
      (AuthenticatorInput.wire ⟨type, nonce, digest, keyId⟩)).1 = .error error) :
    finalize ⟨responseType, .blindRsa ⟨signature⟩⟩ ⟨type, nonce, digest, keyId, .blindRsa ⟨inverse, []⟩⟩
      key = .error error := by
  rw [finalize]
  simp only [TokenResponse.asBlindRsa]
  rw [Result.bind_ok (AuthenticatorInput.serialize_eq _), refused]
  rfl

omit [RsaBackend] in
/-- The issuer signs a blinded message that comes with its truncated key id. -/
theorem PublicIssuer.issue_signed {issuer : PublicIssuer} {request : TokenRequest} {signature : Bytes}
    (typed : request.tokenType = .blindRsa ∨ request.tokenType = .partiallyBlindRsa)
    (same : request.truncatedTokenKeyId = issuer.truncatedKeyId)
    (signed : issuer.privateKey.blindSign request.blindedMsg = .ok signature) :
    issuer.issue request = .ok (.createBlindRsa signature) := by
  rw [issue, if_neg (by tauto), if_neg (not_not.mpr same), Result.bind_ok signed]

omit [RsaBackend] in
/-- Both Blind RSA types have messages and authenticators of 256 bytes. -/
theorem blindRsa_sizes {type : TokenType} (typed : type = .blindRsa ∨ type = .partiallyBlindRsa) :
    (TokenTypeInfo.forType type).blindedElementSize = 256 ∧
      (TokenTypeInfo.forType type).authenticatorSize = 256 ∧
      Token.isValidTokenType type.value = true := by
  rcases typed with rfl | rfl <;> decide

/-- The issuer answers the request of a client, and the client turns the answer into a token under
every key object with the public key. -/
theorem IssuerKeyPair.issue_finalize (hashes : HashesSucceed) (pss : PssConforms)
    (pair : IssuerKeyPair secret issued d spki keyId) {challenge : TokenChallenge}
    (typed : challenge.tokenType = .blindRsa ∨ challenge.tokenType = .partiallyBlindRsa)
    {draws : RequestDraws} {nonce : Nonce} (drawn : draws.nonce = some nonce)
    {digest : ChallengeDigest} (digested : challenge.digest.1 = .ok digest)
    (salted : draws.salt.length = saltLength)
    (invertible : ∃ r ∈ draws.factors, r ≠ 0 ∧ Nat.gcd r issued.n = 1) :
    ∃ blinding signature authenticator,
      blinding.blindedMsg.length = 256 ∧ signature.length = 256 ∧ authenticator.length = 256 ∧
      (PublicIssuer.create ⟨some secret⟩).issue
        ⟨challenge.tokenType, truncatedKeyId keyId, blinding.blindedMsg⟩ =
          .ok (.createBlindRsa signature) ∧
      ∀ key : BlindRsaPublicKey, key.pkey = some issued →
        key.blind (AuthenticatorInput.wire ⟨challenge.tokenType, nonce, digest, keyId⟩) draws.salt
          draws.factors = .ok blinding ∧
        key.verify (AuthenticatorInput.wire ⟨challenge.tokenType, nonce, digest, keyId⟩) authenticator =
          .ok true ∧
        (key.keyId = .ok keyId → PublicClient.createTokenRequest draws challenge key =
          .ok ⟨⟨challenge.tokenType, truncatedKeyId keyId, blinding.blindedMsg⟩,
            ⟨challenge.tokenType, nonce, digest, keyId, .blindRsa ⟨blinding.inverse, []⟩⟩⟩) ∧
        ∀ responseType, PublicClient.finalize ⟨responseType, .blindRsa ⟨signature⟩⟩
          ⟨challenge.tokenType, nonce, digest, keyId, .blindRsa ⟨blinding.inverse, []⟩⟩ key =
            .ok ⟨challenge.tokenType, nonce, digest, keyId, authenticator⟩ := by
  obtain ⟨blinding, signature, authenticator, blindedSize, signatureSize, size, signed, accepted⟩ :=
    blind_sign_finalize hashes pss pair.isPssKey pair.exponents pair.modulus
      pair.known (AuthenticatorInput.wire ⟨challenge.tokenType, nonce, digest, keyId⟩) salted invertible
  refine ⟨blinding, signature, authenticator, blindedSize, signatureSize, size, ?_, ?_⟩
  · rw [pair.create]
    exact PublicIssuer.issue_signed typed rfl signed
  · intro key held
    obtain ⟨blinded, verified, unblinded⟩ := accepted key held
    exact ⟨blinded, verified,
      fun named => PublicClient.createTokenRequest_ok drawn digested named blinded,
      fun responseType => PublicClient.finalize_ok (unblinded [])⟩

/-- A token whose signature is accepted under a held key is accepted by the origin. -/
theorem PublicOrigin.verify_signed {origin : PublicOrigin} {token : Token} {challenge : TokenChallenge}
    {key : BlindRsaPublicKey}
    (typed : token.tokenType = .blindRsa ∨ token.tokenType = .partiallyBlindRsa)
    (size : token.authenticator.length = 256) (digested : challenge.digest.1 = .ok token.challengeDigest)
    (held : origin.HoldsKey token.tokenKeyId key)
    (verified : key.verify token.authenticatorInput.wire token.authenticator = .ok true) :
    origin.verify token challenge = .ok true := by
  obtain ⟨-, authenticator, -⟩ := blindRsa_sizes typed
  rw [← AuthenticatorInput.build_calls] at verified
  apply verify_eq_ok.mpr
  refine ⟨Token.validate_eq_ok.mpr ⟨?_, ?_⟩, typed, digested, key, held, verified⟩
  · rw [authenticator]
    decide
  · rw [authenticator, size]

/-- An honest exchange ends with an accepted token: every step succeeds, and the origin verifies the
token against the challenge that it has sent. -/
theorem Exchange.run_accepted (hashes : HashesSucceed) (pss : PssConforms)
    (pair : IssuerKeyPair secret issued d spki keyId) (exchange : Exchange)
    (issuing : exchange.issuer = .create ⟨some secret⟩)
    (clientHolds : exchange.clientKey.pkey = some issued)
    (clientNames : exchange.clientKey.keyId = .ok keyId)
    (originHolds : ∃ held, exchange.origin.HoldsKey keyId held ∧ held.pkey = some issued)
    (deliverable : exchange.challenge.Deliverable) (coherent : exchange.challenge.Coherent)
    (nonce : exchange.draws.nonce.isSome) (salted : exchange.draws.salt.length = saltLength)
    (invertible : ∃ r ∈ exchange.draws.factors, r ≠ 0 ∧ Nat.gcd r issued.n = 1) :
    exchange.run = .ok true := by
  obtain ⟨nonce, drawn⟩ := Option.isSome_iff_exists.mp nonce
  obtain ⟨held, holds, heldKey⟩ := originHolds
  obtain ⟨bits, exponent⟩ := validateRsaParams_ok pair.valid
  -- the challenge reaches the client with the digest of the original
  obtain ⟨bytes, nonempty, serialized, delivered, again⟩ := deliverable.deserialize
  obtain ⟨text, header, built, parsed, decoded, -⟩ :=
    buildWwwAuthenticate_parse exchange.tokenKey exchange.maxAge serialized nonempty
  rw [delivered] at decoded
  obtain ⟨digest, hashed⟩ := hashes.sha256 bytes
  have sha : sha256 bytes = .ok digest := by
    rw [sha256, hashed]
  have original := coherent.digest_eq serialized sha
  have fresh : exchange.challenge.received.Coherent := TokenChallenge.coherent_create _ _ _ _
  have copied := fresh.digest_eq again sha
  -- the blinded input of the authenticator is signed
  have received : exchange.challenge.received.tokenType = .blindRsa ∨
      exchange.challenge.received.tokenType = .partiallyBlindRsa := deliverable.typed
  obtain ⟨blinding, signature, authenticator, blindedSize, signatureSize, size, issued, accepted⟩ :=
    pair.issue_finalize hashes pss received drawn copied salted invertible
  obtain ⟨-, -, created, finalized⟩ := accepted exchange.clientKey clientHolds
  obtain ⟨-, verified, -⟩ := accepted held heldKey
  obtain ⟨blindedElement, authenticatorSize, valid⟩ := blindRsa_sizes deliverable.typed
  let request : TokenRequest :=
    ⟨exchange.challenge.tokenType, truncatedKeyId keyId, blinding.blindedMsg⟩
  let token : Token := ⟨exchange.challenge.tokenType, nonce, digest, keyId, authenticator⟩
  let kept : FinalizationData :=
    ⟨exchange.challenge.tokenType, nonce, digest, keyId, .blindRsa ⟨blinding.inverse, []⟩⟩
  have created : PublicClient.createTokenRequest exchange.draws exchange.challenge.received
      exchange.clientKey = .ok ⟨request, kept⟩ := created clientNames
  have requestSized : request.Sized := blindedSize.trans blindedElement.symm
  have answered : exchange.issuer.issue request = .ok (.createBlindRsa signature) := by
    rw [issuing]
    exact issued
  have responseWritten : (TokenResponse.createBlindRsa signature).serialize = .ok signature := rfl
  have responseRead : TokenResponse.deserialize request.tokenType signature =
      .ok ⟨exchange.challenge.tokenType, .blindRsa ⟨signature⟩⟩ := by
    rw [TokenResponse.deserialize, if_pos deliverable.typed,
      Result.bind_ok (BlindRsaTokenResponse.deserialize_sized signatureSize)]
  have finalized : PublicClient.finalize ⟨exchange.challenge.tokenType, .blindRsa ⟨signature⟩⟩ kept
      exchange.clientKey = .ok token := finalized _
  -- the token returns to the origin in its own header
  obtain ⟨authorization, authorized, returned⟩ :=
    buildAuthorization_parse (Token.serialize_eq token) token.wire_ne_nil
  have tokenSized : token.Sized := ⟨valid, size.trans authenticatorSize.symm⟩
  rw [Token.deserialize_wire tokenSized] at returned
  rw [run, Result.bind_ok built, Result.bind_ok parsed, Result.bind_ok decoded,
    Result.bind_ok created]
  dsimp only
  rw [Result.bind_ok (TokenRequest.serialize_eq request),
    Result.bind_ok (TokenRequest.deserialize_wire requestSized), Result.bind_ok answered,
    Result.bind_ok responseWritten, Result.bind_ok responseRead, Result.bind_ok finalized,
    Result.bind_ok authorized, Result.bind_ok returned]
  exact PublicOrigin.verify_signed deliverable.typed size original holds verified

end Honest

section Instances

/-- These primes stand one above a multiple of a power of two. -/
def leftPrime : Nat := 3931 * 2 ^ (1011 + 1) + 1

def rightPrime : Nat := 7547 * 2 ^ (1010 + 1) + 1

def recordedModulus : Nat := leftPrime * rightPrime

/-- The exponent is the inverse of 65537 modulo `lcm (p - 1) (q - 1)`. -/
def recordedExponent : Nat :=
  0xe8da76f0000ffff0000ffff0000ffff0000ffff0000ffff0000ffff0000ffff0000ffff0000ffff0000ffff0000ffff0000ffff0000ffff0000ffff0000ffff0000ffff0000ffff0000ffff0000ffff0000ffff0000ffff0000ffff0000ffff0000ffff0000ffff0000ffff0000ffff0000ffff0000ffff0000ffff0000ffff0001

theorem recorded_primes : leftPrime.Prime ∧ rightPrime.Prime ∧ leftPrime ≠ rightPrime ∧
    Odd leftPrime ∧ Odd rightPrime ∧
    65537 * recordedExponent ≡ 1 [MOD (leftPrime - 1).lcm (rightPrime - 1)] := by
  have left : leftPrime.Prime :=
    @Primality.prime_of_squareTimes leftPrime 3931 1011 3 (by norm_num) (by rw [leftPrime])
      (by decide +kernel) (by decide +kernel)
  have right : rightPrime.Prime :=
    @Primality.prime_of_squareTimes rightPrime 7547 1010 3 (by norm_num) (by rw [rightPrime])
      (by decide +kernel) (by decide +kernel)
  exact ⟨left, right, by decide +kernel, Nat.odd_iff.mpr (by decide +kernel),
    Nat.odd_iff.mpr (by decide +kernel), by decide +kernel⟩

theorem recorded_exponents : BlindSignature.RsaExponents recordedModulus 65537 recordedExponent := by
  obtain ⟨left, right, different, oddLeft, oddRight, inverse⟩ := recorded_primes
  exact BlindSignature.rsaExponents_of_primes left right different oddLeft oddRight inverse

theorem recordedModulus_bits : bnNumBits recordedModulus = rsaBits := by decide +kernel

/-- This is the key of a modulus and its public exponent with the parameters of the scheme. -/
def pssKey (n : Nat) (d : Option Nat) : EvpPkey :=
  ⟨true, n, 65537, d, some 48, some "SHA2-384", some "SHA2-384"⟩

/-- These bytes stand in front of the modulus of every such key. -/
def spkiHeader : Bytes := [
  0x30, 0x82, 0x01, 0x56, 0x30, 0x41, 0x06, 0x09, 0x2A, 0x86, 0x48, 0x86, 0xF7, 0x0D, 0x01, 0x01,
  0x0A, 0x30, 0x34, 0xA0, 0x0F, 0x30, 0x0D, 0x06, 0x09, 0x60, 0x86, 0x48, 0x01, 0x65, 0x03, 0x04,
  0x02, 0x02, 0x05, 0x00, 0xA1, 0x1C, 0x30, 0x1A, 0x06, 0x09, 0x2A, 0x86, 0x48, 0x86, 0xF7, 0x0D,
  0x01, 0x01, 0x08, 0x30, 0x0D, 0x06, 0x09, 0x60, 0x86, 0x48, 0x01, 0x65, 0x03, 0x04, 0x02, 0x02,
  0x05, 0x00, 0xA2, 0x03, 0x02, 0x01, 0x30, 0x03, 0x82, 0x01, 0x0F, 0x00, 0x30, 0x82, 0x01, 0x0A,
  0x02, 0x82, 0x01, 0x01, 0x00]

def pssSpki (n : Nat) : Bytes :=
  spkiHeader ++ (BigEndian.toBytes 256 n ++ [0x02, 0x03, 0x01, 0x00, 0x01])

/-- A key is read from its encoding only. -/
def parsePssSpki (spki : Bytes) : Option EvpPkey :=
  let n := BigEndian.ofBytes ((spki.drop spkiHeader.length).take 256)
  if pssSpki n = spki then some (pssKey n none) else none

theorem parsePssSpki_pssSpki {n : Nat} (fits : n < 256 ^ 256) :
    parsePssSpki (pssSpki n) = some (pssKey n none) := by
  have modulus : BigEndian.ofBytes (((pssSpki n).drop spkiHeader.length).take 256) = n := by
    rw [pssSpki, List.drop_left, List.take_left' (BigEndian.toBytes_length 256 n),
      BigEndian.ofBytes_toBytes fits]
  rw [parsePssSpki, modulus, if_pos rfl]

/-- These are the digests of the key and of the challenge. -/
def exchangeSha256 : List (Nat × Nat) := [
  (0xad6569ef37e51f0,
    0x2bd31e9e42207fc1b06d2863a1ea6300da3769ace8e95ad1a761c5e09af74986),
  (0x1c810a0dd7185b65,
    0x42f91d301198753759311edcd5d3b99b55641052428699fba0a46b86090a5ccb)]

/-- These are the digests of one input of an authenticator, of its salted hash and of its mask. -/
def exchangeSha384 : List (Nat × Nat) := [
  (0xafb75072f405b8b,
    0xcd57045a0acf37ede1abd9b7f0d5f564a58c7659b231d1f17a4f37d33ddc20259a816b0bbc85fcff8550a18fd7b4e183),
  (0xd8d7ab7ccc877a0,
    0x09a66efc624350086b027da2e12412690e916d45f092ae411974518c27a346ff98f1ffb3f74c27716a5ad3f40ff2741c),
  (0x1acdec48990fd96,
    0x7eb28c96472459cbc7b10bcb63cb3b3d5a3b93ad334f2d5547c95e90d9e3b40f8ce7f5165f06801a47a2bcf7c208ef27),
  (0x1acdec48990fd97,
    0xd83c85d5576b25e76d586bfa6f13e52338a1818e61b325a82804aea3e09e883b2b311f32ad05d467800a4326311b1400),
  (0x1acdec48990fd98,
    0x4bdff24ef7a15c5298b87b08fdb1bc217a3dcb8c9d185fb170e3702e521c5e56492f71152d0c2d50411c480d73357492),
  (0x1acdec48990fd99,
    0x378c323b578428b76c9f6435d218bfec0ec0e307780c70805b9a4bc8a1d13ecc9bfebda8d864e63ef8bf6ed456da8d6f),
  (0x1acdec48990fd9a,
    0xa38d9a9f910a08a1d9d6fa2304847a18be11b7eda982d9f0285a4dee57af5928fe893e485fab3a24c998da45d49c9b8a)]

/-- The digests of the other messages are zero. -/
def totalHash (size : Nat) (digests : List (Nat × Nat)) (data : Bytes) : FixedBytes size :=
  (recorded size digests data).getD (.zero size)

def pssScheme : Pss.Scheme where
  hash data := (totalHash 48 exchangeSha384 data).val
  hashSize := 48
  hash_length data := (totalHash 48 exchangeSha384 data).property
  saltSize := 48
  paddingSize := 158

/-- This library pads and verifies as the standard asks for, over the recorded digests. -/
abbrev pssBackend : RsaBackend where
  evpSha256 data := some (totalHash 32 exchangeSha256 data)
  evpSha384 data := some (totalHash 48 exchangeSha384 data)
  parsePublicKeySpki := parsePssSpki
  marshalPublicKey pkey := some (pssSpki pkey.n)
  paddingAddPkcs1Pss pkey digest salt :=
    if bnNumBits pkey.n = rsaBits ∧ salt.length = saltLength then
      some (Pss.encode pssScheme digest.val salt)
    else none
  digestVerify pkey msg signature :=
    some (decide (signature.length = rsaModulusSize ∧ BigEndian.ofBytes signature < pkey.n) &&
      Pss.verify pssScheme (totalHash 48 exchangeSha384 msg).val
        (BigEndian.toBytes 256 (BigEndian.ofBytes signature ^ pkey.e % pkey.n)))

theorem pssBackend_hashes : @HashesSucceed pssBackend :=
  @HashesSucceed.mk pssBackend (fun _ => ⟨_, rfl⟩) (fun _ => ⟨_, rfl⟩)

theorem pssScheme_size : Pss.blockSize pssScheme + (pssScheme.hashSize + 1) = 256 := by decide

theorem pssScheme_bits : 8 * (Pss.blockSize pssScheme + (pssScheme.hashSize + 1)) = rsaBits := by decide

/-- Only the encoding of the standard is used as a padding. -/
theorem pssBackend_padding {pkey : EvpPkey} {digest : Hash384} {salt encoded : Bytes}
    (success : pssBackend.paddingAddPkcs1Pss pkey digest salt = some encoded) :
    salt.length = pssScheme.saltSize ∧ encoded = Pss.encode pssScheme digest.val salt := by
  change (if _ then _ else _) = _ at success
  split at success
  · next sized => exact ⟨sized.2, (Option.some.inj success).symm⟩
  · cases success

/-- The encoding of the standard meets the documented conditions. -/
theorem pssBackend_conforms : @PssConforms pssBackend := by
  refine @PssConforms.mk pssBackend ?_ ?_ ?_
  · intro pkey digest salt keyed salted
    have sized : bnNumBits pkey.n = rsaBits ∧ salt.length = saltLength := ⟨keyed.bits, salted⟩
    refine ⟨Pss.encode pssScheme digest.val salt, ?_⟩
    change (if _ then _ else _) = _
    rw [if_pos sized]
  · intro pkey digest salt encoded keyed success
    obtain ⟨salted, equal⟩ := pssBackend_padding success
    rw [equal]
    have half := Pss.encode_lt pssScheme digest.val salt (by decide) salted
    rw [pssScheme_bits] at half
    exact ⟨half, Pss.encode_trailer pssScheme digest.val salt⟩
  · intro pkey msg signature digest salt encoded keyed hashed salted success size below power
    obtain ⟨sized, equal⟩ := pssBackend_padding success
    rw [equal] at power
    cases hashed
    let digest := totalHash 48 exchangeSha384 msg
    have length := @Pss.encode_length pssScheme (by decide) digest.val salt sized
    rw [pssScheme_size] at length
    have restored := BigEndian.toBytes_ofBytes (Pss.encode pssScheme digest.val salt)
    rw [length, ← power] at restored
    have range : signature.length = rsaModulusSize ∧ BigEndian.ofBytes signature < pkey.n :=
      ⟨size, below⟩
    change some (decide _ && Pss.verify pssScheme digest.val _) = some true
    rw [restored, Pss.verify_encode (by decide) digest.val sized, decide_eq_true range]
    rfl

theorem pssKey_isPssKey {n : Nat} (odd : Odd n) (bits : bnNumBits n = rsaBits) (d : Option Nat) :
    IsPssKey (pssKey n d) := by
  refine ⟨?_, odd⟩
  have kind : ¬ (pssKey n d).rsaPss = false := Bool.noConfusion
  have modulus : ¬ (bnNumBits (pssKey n d).n ≠ rsaBits ∨ (pssKey n d).e ≠ rsaPublicExponent) := by
    rintro (other | other)
    · exact other bits
    · exact other rfl
  have salted : ¬ (pssKey n d).saltLength ≠ some 48 := not_not.mpr rfl
  have digests : ¬ (acceptedDigest (pssKey n d).digest = false ∨
      acceptedDigest (pssKey n d).mgf1Digest = false) := by
    show ¬ (acceptedDigest (some "SHA2-384") = false ∨ acceptedDigest (some "SHA2-384") = false)
    decide
  rw [validateRsaParams, if_neg kind, if_neg modulus, if_neg salted, if_neg digests]

/-- Every key of 2048 bits with the fixed public exponent can be issued under. -/
theorem pssKey_pair {n d : Nat} (exponents : BlindSignature.RsaExponents n 65537 d)
    (bits : bnNumBits n = rsaBits) :
    @IssuerKeyPair pssBackend (pssKey n (some d)) (pssKey n none) d (pssSpki n)
      (totalHash 32 exchangeSha256 (pssSpki n)) := by
  have fits := lt_of_bits bits
  have length : (pssSpki n).length ≤ maxInputSize := by
    rw [pssSpki, List.length_append, List.length_append, BigEndian.toBytes_length]
    decide
  exact @IssuerKeyPair.mk pssBackend _ _ _ _ _ exponents rfl rfl rfl (List.cons_ne_nil _ _) length
    (parsePssSpki_pssSpki fits) (pssKey_isPssKey exponents.odd bits none).valid rfl

abbrev pssChallenge : TokenChallenge :=
  .create .blindRsa (ascii "issuer.example.com") none [ascii "origin.example.com"]

theorem pssChallenge_deliverable : pssChallenge.Deliverable where
  typed := .inl rfl
  named := by decide
  short := by decide
  few := by decide
  entries := by decide
  fits := by decide

/-- The parties hold the two halves of one key, and the first candidate for the factor is refused. -/
abbrev pssExchange (n d : Nat) : Exchange where
  issuer := @PublicIssuer.create pssBackend ⟨some (pssKey n (some d))⟩
  clientKey := ⟨some (pssKey n none), pssSpki n⟩
  origin := @PublicOrigin.create pssBackend zeroConfig [⟨some (pssKey n none), pssSpki n⟩]
  challenge := pssChallenge
  tokenKey := pssSpki n
  maxAge := some 600
  draws := ⟨some ⟨List.replicate 32 0x11, rfl⟩, List.replicate 48 0x22, [0, 2]⟩

/-- The origin holds the key that the client uses. -/
theorem pssExchange_holdsKey (n d : Nat) :
    ∃ key, (pssExchange n d).origin.HoldsKey (totalHash 32 exchangeSha256 (pssSpki n)) key ∧
      key.pkey = some (pssKey n none) := by
  have named : @BlindRsaPublicKey.keyId pssBackend ⟨some (pssKey n none), pssSpki n⟩ =
      .ok (totalHash 32 exchangeSha256 (pssSpki n)) := rfl
  refine ⟨⟨some (pssKey n none), pssSpki n⟩,
    (@PublicOrigin.holdsKey_addIssuerKey pssBackend _ _ _ _ _ named).mpr ?_, rfl⟩
  rw [if_pos rfl]

/-- The exchange over the recorded key ends with an accepted token. -/
theorem Exchange.run_accepted_recorded :
    @Exchange.run pssBackend (pssExchange recordedModulus recordedExponent) = .ok true := by
  have accepted {n d : Nat} (exponents : BlindSignature.RsaExponents n 65537 d)
      (bits : bnNumBits n = rsaBits) : @Exchange.run pssBackend (pssExchange n d) = .ok true := by
    have named : @BlindRsaPublicKey.keyId pssBackend ⟨some (pssKey n none), pssSpki n⟩ =
        .ok (totalHash 32 exchangeSha256 (pssSpki n)) := rfl
    have invertible : ∃ r ∈ [0, 2], r ≠ 0 ∧ Nat.gcd r n = 1 :=
      ⟨2, by decide, by decide, Nat.coprime_two_left.mpr exponents.odd⟩
    exact @Exchange.run_accepted pssBackend _ _ _ _ _ pssBackend_hashes pssBackend_conforms
      (pssKey_pair exponents bits) (pssExchange n d) rfl rfl named (pssExchange_holdsKey n d)
      pssChallenge_deliverable
      (@TokenChallenge.coherent_create pssBackend.toHashBackend _ _ _ _) rfl rfl invertible
  exact accepted recorded_exponents recordedModulus_bits

end Instances

end PrivacyPass
