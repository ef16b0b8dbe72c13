import PrivacyPass.Construction.Issuance
import PrivacyPass.Library.Unlinkability
import PrivacyPass.Proof.Crypto.Hiding
import PrivacyPass.Proof.Issuer.MultiKey

/-
This file proves that an honest issuer cannot link its sessions to the tokens that come out of them.
-/

namespace PrivacyPass

open Library Crypto Hiding BlindEvaluation ArithmeticFunction

section Rsa

variable [RsaBackend]

/-- The client blinds the input of the authenticator. -/
abbrev Errand.input (errand : Errand) (type : TokenType) (digest : ChallengeDigest) (keyId : TokenKeyId) :
    Bytes := AuthenticatorInput.wire ⟨type, errand.nonce, digest, keyId⟩

/-- The input of the authenticator is encoded as a unit, as all but a few factors of the key are. -/
structure Errand.Suits (errand : Errand) (pkey : EvpPkey) (keyId : TokenKeyId) (type : TokenType)
    (digest : ChallengeDigest) : Prop where
  typed : errand.challenge.tokenType = type
  salted : errand.salt.length = saltLength
  digested : errand.challenge.digest.1 = .ok digest
  unit : ∀ encoded, emsaPssEncode pkey (errand.input type digest keyId)
    errand.salt = .ok encoded → (BigEndian.ofBytes encoded).Coprime pkey.n

/-- The issuer sees the request and its own signature. -/
def issuerView (type : TokenType) (keyId : TokenKeyId) (n d : Nat) (blinded : Bytes) : Bytes × Bytes :=
  (TokenRequest.wire ⟨type, truncatedKeyId keyId, blinded⟩,
    BigEndian.toBytes 256 (BigEndian.ofBytes blinded ^ d % n))

/-- A session without a blinded input is not seen. -/
def sentView (type : TokenType) (keyId : TokenKeyId) (n d : Nat) (sent : Result Bytes) :
    Option (Bytes × Bytes) := sent.toOption.map (issuerView type keyId n d)

variable {secret issued : EvpPkey} {d : Nat} {spki : Bytes} {keyId : TokenKeyId} {key : BlindRsaPublicKey}
  {type : TokenType} {errand : Errand} {digest : ChallengeDigest}

/-- Without an invertible candidate there is no session. -/
theorem Errand.session_exhausted {issuer : PublicIssuer} (held : key.pkey = some issued)
    {factors : List Nat} (exhausted : factors.find? (takes issued.n) = none) :
    (errand.session issuer key factors).toOption = none := by
  cases ended : errand.session issuer key factors with
  | error error => rfl
  | ok made =>
      obtain ⟨created, asked, -⟩ := Result.bind_eq_ok.mp ended
      obtain ⟨nonce, digest, keyId, blinding, -, -, blinded, -⟩ :=
        PublicClient.createTokenRequest_eq_ok asked
      obtain ⟨r, member, invertible⟩ := blind_invertible held blinded
      exact absurd (takes_iff.mpr invertible) (List.find?_eq_none.mp exhausted r member)

/-- A session passes the blinded message to the signer and its signature back. -/
theorem Errand.session_signed (pair : IssuerKeyPair secret issued d spki keyId)
    (named : key.keyId = .ok keyId) (rsa : type = .blindRsa ∨ type = .partiallyBlindRsa)
    (typed : errand.challenge.tokenType = type) (digested : errand.challenge.digest.1 = .ok digest)
    {factors : List Nat} {blinding : BlindingData} {signature authenticator : Bytes}
    (blinded : key.blind (errand.input type digest keyId) errand.salt factors =
      .ok blinding) (size : blinding.blindedMsg.length = 256) (signatureSize : signature.length = 256)
    (signed : (⟨some secret⟩ : BlindRsaPrivateKey).blindSign blinding.blindedMsg = .ok signature)
    (unblinded : (key.finalize signature ⟨blinding.inverse, []⟩
      (errand.input type digest keyId)).1 = .ok authenticator) :
    errand.session (.create ⟨some secret⟩) key factors =
      .ok ((TokenRequest.wire ⟨type, truncatedKeyId keyId, blinding.blindedMsg⟩, signature),
        ⟨type, errand.nonce, digest, keyId, authenticator⟩) := by
  obtain ⟨blindedElement, -, -⟩ := blindRsa_sizes rsa
  subst typed
  let request : TokenRequest := ⟨errand.challenge.tokenType, truncatedKeyId keyId, blinding.blindedMsg⟩
  have requestSized : request.Sized := size.trans blindedElement.symm
  have created : PublicClient.createTokenRequest ⟨some errand.nonce, errand.salt, factors⟩
      errand.challenge key = .ok ⟨request, _⟩ :=
    PublicClient.createTokenRequest_ok rfl digested named blinded
  have answered : (PublicIssuer.create ⟨some secret⟩).issue request = .ok (.createBlindRsa signature) := by
    rw [pair.create]
    exact PublicIssuer.issue_signed rsa rfl signed
  have written : (TokenResponse.createBlindRsa signature).serialize = .ok signature := rfl
  have read : TokenResponse.deserialize request.tokenType signature =
      .ok ⟨errand.challenge.tokenType, .blindRsa ⟨signature⟩⟩ := by
    rw [TokenResponse.deserialize, if_pos rsa,
      Result.bind_ok (BlindRsaTokenResponse.deserialize_sized signatureSize)]
  rw [session, Result.bind_ok created]
  dsimp only
  rw [Result.bind_ok (TokenRequest.serialize_eq request),
    Result.bind_ok (TokenRequest.deserialize_wire requestSized), Result.bind_ok answered,
    Result.bind_ok written, Result.bind_ok read, Result.bind_ok (PublicClient.finalize_ok unblinded)]

/-- The signature of an encoding is its power. -/
def rsaSignature (n d : Nat) (encoded : Bytes) : Bytes :=
  BigEndian.toBytes 256 (BigEndian.ofBytes encoded ^ d % n)

/-- A session sends the blinded input, and its token does not depend on the factor. -/
theorem Errand.session_eq (hashes : HashesSucceed) (pss : PssConforms)
    (pair : IssuerKeyPair secret issued d spki keyId) (held : key.pkey = some issued)
    (named : key.keyId = .ok keyId) (rsa : type = .blindRsa ∨ type = .partiallyBlindRsa)
    (typed : errand.challenge.tokenType = type) (salted : errand.salt.length = saltLength)
    (digested : errand.challenge.digest.1 = .ok digest) : ∃ encoded,
      emsaPssEncode issued (errand.input type digest keyId) errand.salt =
        .ok encoded ∧
      key.verify (errand.input type digest keyId) (rsaSignature issued.n d encoded) = .ok true ∧
      ∀ factors, (errand.session (.create ⟨some secret⟩) key factors).toOption =
        (key.sentMsg (errand.input type digest keyId) errand.salt
          factors).toOption.map fun blinded =>
            (issuerView type keyId issued.n d blinded,
              ⟨type, errand.nonce, digest, keyId, rsaSignature issued.n d encoded⟩) := by
  obtain ⟨bits, exponent⟩ := validateRsaParams_ok pair.valid
  have size := bnNumBytes_of_bits bits
  have fits := lt_of_bits bits
  have odd : issued.n % 2 = 1 := Nat.odd_iff.mp pair.exponents.odd
  let input := errand.input type digest keyId
  obtain ⟨hash, encoded, hashed, padded, encodes, nonzero, below⟩ :=
    emsaPssEncode_ok hashes pss pair.isPssKey input salted
  have range : 0 < issued.n := Nat.zero_lt_of_lt below
  let m := BigEndian.ofBytes encoded
  have verifies {r inverse : Nat} (cancels : (r : ZMod issued.n) * inverse = 1) :
      key.verify input (rsaSignature issued.n d encoded) = .ok true := by
    have accepted := unblinded_accepted pss pair.isPssKey pair.exponents hashed salted padded below fits cancels
    rw [pair.exponents.unblind_mod cancels] at accepted
    rw [BlindRsaPublicKey.verify, held]
    simp only [rsaSignature, accepted]
  refine ⟨encoded, encodes, @verifies 1 1 (by simp), ?_⟩
  intro factors
  rw [BlindRsaPublicKey.sentMsg_eq held pair.exponents.odd size encodes]
  cases found : factors.find? (takes issued.n) with
  | none => exact session_exhausted held found
  | some r =>
      obtain ⟨-, coprime⟩ := takes_iff.mp (List.find?_some found)
      have inverted : bnModInverse r issued.n = some _ := if_pos coprime
      have drawn := drawBlind_eq_some.mpr ⟨found, inverted⟩
      obtain ⟨cancels, reduced⟩ := bnModInverse_spec range inverted
      let blinded := m * (r ^ issued.e % issued.n) % issued.n
      have blindedBelow : blinded < issued.n := Nat.mod_lt _ range
      have blindedNonzero : blinded ≠ 0 := BlindSignature.blinded_mod_ne_zero cancels nonzero below
      have signatureNonzero : blinded ^ d % issued.n ≠ 0 := by
        apply pair.exponents.signature_mod_ne_zero (by rw [exponent]; decide)
        rwa [Nat.mod_eq_of_lt blindedBelow]
      have read : BigEndian.ofBytes (BigEndian.toBytes 256 blinded) = blinded :=
        BigEndian.ofBytes_toBytes (blindedBelow.trans fits)
      have signed := @blindSign_ok secret (by rw [pair.modulus, size]) (by rw [pair.modulus, odd])
        ⟨some secret⟩ rfl d blinded pair.known blindedNonzero (by rwa [pair.modulus])
      have unblinded := @finalize_ok _ _ size odd key held _ _ [] input signatureNonzero
        (Nat.mod_lt _ range) reduced (by rw [pair.exponents.unblind_mod cancels]; exact verifies cancels)
      rw [pair.exponents.unblind_mod cancels] at unblinded
      rw [pair.modulus] at signed
      rw [session_signed pair named rsa typed digested (blind_ok size odd held encodes drawn reduced)
        (BigEndian.toBytes_length _ _) (BigEndian.toBytes_length _ _) signed unblinded]
      simp only [BlindRsaPublicKey.blindedBytes, Except.toOption, Option.map_some, issuerView, read,
        blinded, m]
      rfl

/-- A blinded input is sent exactly when a factor is found. -/
theorem sentMsg_isSome (held : key.pkey = some issued) (odd : Odd issued.n)
    (size : bnNumBytes issued.n = rsaModulusSize) {msg salt encoded : Bytes}
    (encodes : emsaPssEncode issued msg salt = .ok encoded) (factors : List Nat) :
    (∃ blinded, (key.sentMsg msg salt factors).toOption = some blinded) ↔
      ∃ r ∈ factors, r ≠ 0 ∧ Nat.gcd r issued.n = 1 := by
  rw [BlindRsaPublicKey.sentMsg_eq held odd size encodes]
  cases found : factors.find? (takes issued.n) with
  | none =>
      simp only [BlindRsaPublicKey.blindedBytes, Except.toOption, reduceCtorEq, exists_false, false_iff]
      rintro ⟨r, member, invertible⟩
      exact List.find?_eq_none.mp found r member (takes_iff.mpr invertible)
  | some r =>
      simp only [BlindRsaPublicKey.blindedBytes, Except.toOption, Option.some.injEq, exists_eq', true_iff]
      exact ⟨r, List.mem_of_find?_eq_some found, takes_iff.mp (List.find?_some found)⟩

/-- The sessions of an issuer with its key. -/
def sessions (secret : EvpPkey) (key : BlindRsaPublicKey) (errands : List Errand) :
    List (List Nat → Option ((Bytes × Bytes) × Token)) :=
  errands.map fun errand factors => (errand.session (.create ⟨some secret⟩) key factors).toOption

/-- For every list of sessions with one key and one type of tokens, each session makes one token
whatever factor is drawn, exactly when a factor is found, and the issuer's views in their order
with the tokens in no order have the same law for every order of the sessions. -/
theorem sessions_unlinkable (hashes : HashesSucceed) (pss : PssConforms)
    (pair : IssuerKeyPair secret issued d spki keyId) (held : key.pkey = some issued)
    (named : key.keyId = .ok keyId) (rsa : type = .blindRsa ∨ type = .partiallyBlindRsa)
    {errands : List Errand}
    (suits : ∀ errand ∈ errands, ∃ digest, errand.Suits issued keyId type digest) :
    (∀ errand ∈ errands, ∃ token, token.tokenType = type ∧ token.nonce = errand.nonce ∧
      errand.challenge.digest.1 = .ok token.challengeDigest ∧ token.tokenKeyId = keyId ∧
      key.verify token.authenticatorInput.wire token.authenticator = .ok true ∧
      ∀ factors, (∃ view, errand.session (.create ⟨some secret⟩) key factors = .ok (view, token)) ↔
        ∃ r ∈ factors, r ≠ 0 ∧ Nat.gcd r issued.n = 1) ∧
    ∀ others, errands.Perm others → ∀ count,
      Unlinkability.published (uniformDraws issued.n pair.exponents.odd.pos count)
          (sessions secret key errands) =
        Unlinkability.published (uniformDraws issued.n pair.exponents.odd.pos count)
          (sessions secret key others) := by
  obtain ⟨bits, exponent⟩ := validateRsaParams_ok pair.valid
  have size := bnNumBytes_of_bits bits
  constructor
  · intro errand member
    obtain ⟨digest, fits⟩ := suits errand member
    obtain ⟨encoded, encodes, verified, settled⟩ := Errand.session_eq hashes pss pair held named rsa
      fits.typed fits.salted fits.digested
    let token : Token := ⟨type, errand.nonce, digest, keyId, rsaSignature issued.n d encoded⟩
    refine ⟨token, rfl, rfl, fits.digested, rfl, verified, ?_⟩
    intro factors
    rw [← sentMsg_isSome held pair.exponents.odd size encodes factors]
    simp only [← Result.toOption_eq_some, settled, Option.map_eq_some_iff]
    constructor
    · rintro ⟨view, blinded, sent, -⟩
      exact ⟨blinded, sent⟩
    · rintro ⟨blinded, sent⟩
      exact ⟨_, blinded, sent, rfl⟩
  · intro others permuted count
    have : NeZero issued.n := ⟨pair.exponents.odd.pos.ne'⟩
    have coprime : issued.e.Coprime (carmichael issued.n) := coprime_carmichael pair.exponents
    cases errands with
    | nil => rw [List.nil_perm.mp permuted]
    | cons first rest =>
        obtain ⟨firstDigest, firstSuits⟩ := suits first List.mem_cons_self
        obtain ⟨firstEncoded, firstEncodes, -, -⟩ := Errand.session_eq hashes pss pair held named rsa
          firstSuits.typed firstSuits.salted firstSuits.digested
        refine Unlinkability.published_perm ((uniformDraws issued.n pair.exponents.odd.pos count).map
          (sentView type keyId issued.n d ∘ key.sentMsg (first.input type firstDigest keyId) first.salt)) ?_ (permuted.map _)
        intro session member
        obtain ⟨errand, inside, rfl⟩ := List.mem_map.mp member
        obtain ⟨digest, fits⟩ := suits errand inside
        obtain ⟨encoded, encodes, -, settled⟩ := Errand.session_eq hashes pss pair held named rsa
          fits.typed fits.salted fits.digested
        have shows (factors : List Nat) : (errand.session (.create ⟨some secret⟩) key factors).toOption =
            ((sentView type keyId issued.n d ∘ key.sentMsg (errand.input type digest keyId) errand.salt)
              factors).map fun view => (view, ⟨type, errand.nonce, digest, keyId, rsaSignature issued.n d encoded⟩) := by
          rw [settled, Function.comp_apply, sentView, Option.map_map]
          rfl
        constructor
        · rw [Unlinkability.map_seen fun factors _ => shows factors, ← PMF.map_comp, ← PMF.map_comp]
          exact congrArg _ (BlindRsaPublicKey.sentMsg_law held pair.exponents.odd coprime encodes firstEncodes
            (fits.unit encoded encodes) (firstSuits.unit firstEncoded firstEncodes) count)
        · exact ⟨_, Unlinkability.makes_of_map fun factors _ => shows factors⟩

end Rsa

section Voprf

open VoprfClient

variable [CurveBackend] [AddCommGroup EcBackend.Point] {generator : EcBackend.Point}

/-- The server answers a sent element with its evaluation, and both are seen. -/
def evaluationView (server : VoprfServer) (sent : Result Bytes) (draws : List Nat) :
    Option (Bytes × VoprfEvaluation) :=
  sent.toOption.bind fun element =>
    (server.blindEvaluate draws element).toOption.map fun evaluation => (element, evaluation)

omit [AddCommGroup EcBackend.Point] in
/-- A server without a nonce for its proof evaluates nothing. -/
theorem drawScalar_of_blindEvaluate {server : VoprfServer} {draws : List Nat} {element : Bytes}
    {evaluation : VoprfEvaluation} (evaluated : server.blindEvaluate draws element = .ok evaluation) :
    ∃ t, drawScalar draws = some t := by
  unfold VoprfServer.blindEvaluate at evaluated
  split at evaluated
  · cases evaluated
  split at evaluated
  · cases evaluated
  obtain ⟨scalarBytes, -, evaluated⟩ := Result.bind_eq_ok.mp evaluated
  dsimp only at evaluated
  split at evaluated
  · cases evaluated
  obtain ⟨publicKey, -, evaluated⟩ := Result.bind_eq_ok.mp evaluated
  obtain ⟨pubBytes, -, evaluated⟩ := Result.bind_eq_ok.mp evaluated
  split at evaluated
  · cases evaluated
  obtain ⟨proof, proved, -⟩ := Result.bind_eq_ok.mp evaluated
  obtain ⟨composites, -, proved⟩ := Result.bind_eq_ok.mp proved
  cases drawn : drawScalar draws with
  | none => simp [drawn] at proved
  | some t => exact ⟨t, rfl⟩

/-- A session ends with one output for its input, whatever the scalar and the nonce were. -/
theorem voprfSession_eq (conforms : GroupConforms generator) (hashes : Sha384Succeeds) {k : Nat}
    (positive : 1 ≤ k) (below : k < EcBackend.order) {input output : Bytes} {H : EcBackend.Point}
    (hashed : hashToCurve input = .ok H) (nonzero : H ≠ 0)
    (finalized : finalizeOutput input (octets (k • H)) = .ok output) {r : Nat}
    (reduced : r < EcBackend.order) (draws : List Nat) :
    ((⟨⟨some (k • generator)⟩⟩ : VoprfClient).session ⟨⟨some k⟩⟩ input (some r) draws).toOption =
      (evaluationView ⟨⟨some k⟩⟩ ((⟨⟨some (k • generator)⟩⟩ : VoprfClient).sentElement input (some r))
        draws).map fun view => (view, output) := by
  rw [evaluationView, sentElement_eq conforms _ hashed reduced]
  by_cases zero : r = 0
  · subst zero
    rw [if_pos rfl, VoprfClient.session, blind, Result.bind_ok hashed]
    rfl
  · have blinding : 1 ≤ r := Nat.pos_of_ne_zero zero
    have blinded : r • H ≠ 0 := nsmul_ne_zero conforms.prime (conforms.torsion H) nonzero blinding reduced
    rw [if_neg zero, VoprfClient.session, Result.bind_ok (blind_eq conforms _ hashed blinding reduced)]
    dsimp only [Except.toOption, Option.bind_some]
    cases evaluated : (⟨⟨some k⟩⟩ : VoprfServer).blindEvaluate draws (octets (r • H)) with
    | error error => rfl
    | ok evaluation =>
        obtain ⟨t, drawn⟩ := drawScalar_of_blindEvaluate evaluated
        obtain ⟨proof, evaluates, size, accepted⟩ :=
          blindEvaluate_eq conforms hashes positive below drawn blinded
        obtain rfl := Except.ok.inj (evaluates.symm.trans evaluated)
        have ended := (finalize_eq conforms positive below blinding reduced nonzero size accepted).trans
          finalized
        rw [Result.bind_ok rfl, Result.bind_ok ended]
        rfl

/-- A session succeeds exactly when a scalar and a nonce were drawn. -/
theorem evaluationView_isSome (conforms : GroupConforms generator) (hashes : Sha384Succeeds) {k : Nat}
    (positive : 1 ≤ k) (below : k < EcBackend.order) (client : VoprfClient) {input : Bytes}
    {H : EcBackend.Point} (hashed : hashToCurve input = .ok H) (nonzero : H ≠ 0) {r : Nat}
    (reduced : r < EcBackend.order) (draws : List Nat) :
    (∃ view, evaluationView ⟨⟨some k⟩⟩ (client.sentElement input (some r)) draws = some view) ↔
      r ≠ 0 ∧ ∃ t, drawScalar draws = some t := by
  rw [evaluationView, sentElement_eq conforms _ hashed reduced]
  by_cases zero : r = 0
  · simp [zero, Except.toOption]
  · have blinded : r • H ≠ 0 :=
      nsmul_ne_zero conforms.prime (conforms.torsion H) nonzero (Nat.pos_of_ne_zero zero) reduced
    rw [if_neg zero]
    dsimp only [Except.toOption, Option.bind_some]
    constructor
    · rintro ⟨view, seen⟩
      obtain ⟨evaluation, found, -⟩ := Option.map_eq_some_iff.mp seen
      exact ⟨zero, drawScalar_of_blindEvaluate (Result.toOption_eq_some.mp found)⟩
    · rintro ⟨-, t, drawn⟩
      obtain ⟨proof, evaluates, -, -⟩ := blindEvaluate_eq conforms hashes positive below drawn blinded
      exact ⟨(octets (r • H), ⟨octets (k • r • H), proof⟩), by rw [evaluates]; rfl⟩

/-- The scalar of the client is uniform, and the nonces of the server have any law. -/
noncomputable def sessionLaw (order : Nat) (positive : 0 < order) (serverLaw : PMF (List Nat)) :
    PMF (List Nat × List Nat) :=
  (uniformDraws order positive 1).bind fun scalars => serverLaw.map fun draws => (scalars, draws)

omit [CurveBackend] [AddCommGroup EcBackend.Point] in
/-- The possible scalars are single and below the order. -/
theorem mem_support_sessionLaw {order : Nat} (positive : 0 < order) {serverLaw : PMF (List Nat)}
    {choice : List Nat × List Nat} (possible : choice ∈ (sessionLaw order positive serverLaw).support) :
    ∃ r < order, choice.1 = [r] := by
  obtain ⟨scalars, drawn, rest⟩ := (PMF.mem_support_bind_iff _ _ _).mp possible
  obtain ⟨draws, -, rfl⟩ := (PMF.mem_support_map_iff _ _ _).mp rest
  obtain ⟨single, reduced⟩ := (mem_support_uniformDraws positive 1 scalars).mp drawn
  obtain ⟨r, rfl⟩ := List.length_eq_one_iff.mp single
  exact ⟨r, reduced r (List.mem_singleton.mpr rfl), rfl⟩

omit [AddCommGroup EcBackend.Point] in
/-- What is seen depends on the scalars through the sent element. -/
theorem map_sessionLaw {order : Nat} (positive : 0 < order) {serverLaw : PMF (List Nat)}
    (server : VoprfServer) (sent : List Nat → Result Bytes) :
    (sessionLaw order positive serverLaw).map (fun choice => evaluationView server (sent choice.1) choice.2) =
      ((uniformDraws order positive 1).map sent).bind fun element =>
        serverLaw.map (evaluationView server element) := by
  rw [sessionLaw, PMF.map_bind, PMF.bind_map]
  congr 1
  funext scalars
  rw [PMF.map_comp]
  rfl

/-- The sessions of a client with a VOPRF server, one for each input. -/
def voprfSessions (client : VoprfClient) (server : VoprfServer) (inputs : List Bytes) :
    List (List Nat × List Nat → Option ((Bytes × VoprfEvaluation) × Bytes)) :=
  inputs.map fun input choice => (client.session server input choice.1.head? choice.2).toOption

/-- For every list of sessions with one VOPRF server, each session ends with the output that the
server accepts for its input whatever scalar and nonce are drawn, and the server's views in their
order with the outputs in no order have the same law for every order of the sessions. -/
theorem voprfSessions_unlinkable (conforms : GroupConforms generator)
    (card : Nat.card EcBackend.Point = EcBackend.order) (hashes : Sha384Succeeds) {k : Nat}
    (positive : 1 ≤ k) (below : k < EcBackend.order) {inputs : List Bytes}
    (short : ∀ input ∈ inputs, input.length ≤ 65535)
    (hashed : ∀ input ∈ inputs, ∃ H, hashToCurve input = .ok H ∧ H ≠ 0) :
    (∀ input ∈ inputs, ∃ output, (⟨⟨some k⟩⟩ : VoprfServer).verifyFinalize input output = .ok true ∧
      ∀ r < EcBackend.order, ∀ draws,
        (∃ view, (⟨⟨some (k • generator)⟩⟩ : VoprfClient).session ⟨⟨some k⟩⟩ input (some r) draws =
          .ok (view, output)) ↔ r ≠ 0 ∧ ∃ t, drawScalar draws = some t) ∧
    ∀ others, inputs.Perm others → ∀ serverLaw : PMF (List Nat),
      Unlinkability.published (sessionLaw EcBackend.order conforms.prime.pos serverLaw)
          (voprfSessions ⟨⟨some (k • generator)⟩⟩ ⟨⟨some k⟩⟩ inputs) =
        Unlinkability.published (sessionLaw EcBackend.order conforms.prime.pos serverLaw)
          (voprfSessions ⟨⟨some (k • generator)⟩⟩ ⟨⟨some k⟩⟩ others) := by
  have outputs {input : Bytes} {H : EcBackend.Point} (member : input ∈ inputs) (nonzero : H ≠ 0) :
      ∃ output, finalizeOutput input (octets (k • H)) = .ok output := by
    have issued : k • H ≠ 0 := nsmul_ne_zero conforms.prime (conforms.torsion H) nonzero positive below
    exact finalizeOutput_ok hashes (short input member) (by
      rw [(bytesToPoint_octets conforms issued).2, p384ElementSize]
      omega)
  constructor
  · intro input member
    obtain ⟨H, point, nonzero⟩ := hashed input member
    obtain ⟨output, finalized⟩ := outputs member nonzero
    refine ⟨output, verifyFinalize_eq conforms below (short input member) point finalized, ?_⟩
    intro r reduced draws
    rw [← evaluationView_isSome conforms hashes positive below ⟨⟨some (k • generator)⟩⟩ point nonzero reduced draws]
    simp only [← Result.toOption_eq_some,
      voprfSession_eq conforms hashes positive below point nonzero finalized reduced,
      Option.map_eq_some_iff, Prod.mk.injEq, and_true, exists_eq_right]
  · intro others permuted serverLaw
    cases inputs with
    | nil => rw [List.nil_perm.mp permuted]
    | cons first rest =>
        obtain ⟨firstH, firstPoint, firstNonzero⟩ := hashed first List.mem_cons_self
        refine Unlinkability.published_perm ((sessionLaw EcBackend.order conforms.prime.pos serverLaw).map
          fun choice => evaluationView ⟨⟨some k⟩⟩
            ((⟨⟨some (k • generator)⟩⟩ : VoprfClient).sentElement first choice.1.head?) choice.2)
          ?_ (permuted.map _)
        intro session member
        obtain ⟨input, inside, rfl⟩ := List.mem_map.mp member
        obtain ⟨H, point, nonzero⟩ := hashed input inside
        obtain ⟨output, finalized⟩ := outputs inside nonzero
        have shows (choice : List Nat × List Nat)
            (possible : choice ∈ (sessionLaw EcBackend.order conforms.prime.pos serverLaw).support) :
            ((⟨⟨some (k • generator)⟩⟩ : VoprfClient).session ⟨⟨some k⟩⟩ input choice.1.head?
              choice.2).toOption = (evaluationView ⟨⟨some k⟩⟩
                ((⟨⟨some (k • generator)⟩⟩ : VoprfClient).sentElement input choice.1.head?)
                choice.2).map fun view => (view, output) := by
          obtain ⟨r, reduced, single⟩ := mem_support_sessionLaw _ possible
          rw [single]
          exact voprfSession_eq conforms hashes positive below point nonzero finalized reduced choice.2
        refine ⟨?_, output, Unlinkability.makes_of_map shows⟩
        rw [Unlinkability.map_seen shows,
          map_sessionLaw _ _ fun scalars => sentElement _ input scalars.head?,
          map_sessionLaw _ _ fun scalars => sentElement _ first scalars.head?,
          sentElement_law conforms card _ point nonzero firstPoint firstNonzero]

end Voprf

section Instances

open MultiKeyIssuer (sharedBackend sharedBackend_hashes sharedBackend_conforms sharedKeyId sharedKey_pair
  sharedDigest sharedDigest_eq)

theorem errandNonce_length (byte : UInt8) : (List.replicate 32 byte).length = 32 := List.length_replicate

/-- Two clients go to the issuer with the same challenge. -/
def recordedErrand (byte : UInt8) : Errand :=
  ⟨pssChallenge, ⟨List.replicate 32 byte, errandNonce_length byte⟩, List.replicate 48 0x22⟩

def errandEncoded (n : Nat) (byte : UInt8) : Bytes :=
  Pss.encode pssScheme (totalHash 48 exchangeSha384
    ((recordedErrand byte).input .blindRsa sharedDigest (sharedKeyId n))).val (List.replicate 48 0x22)

theorem recordedErrand_suits {n : Nat} (bits : bnNumBits n = rsaBits) (byte : UInt8)
    (unit : (BigEndian.ofBytes (errandEncoded n byte)).Coprime n) :
    @Errand.Suits sharedBackend.toRsaBackend (recordedErrand byte) (pssKey n none) (sharedKeyId n)
      .blindRsa sharedDigest := by
  refine @Errand.Suits.mk sharedBackend.toRsaBackend _ _ _ _ _ rfl List.length_replicate sharedDigest_eq ?_
  intro encoded encodes
  have padded : bnNumBits (pssKey n none).n = rsaBits ∧ (recordedErrand byte).salt.length = saltLength :=
    ⟨bits, List.length_replicate⟩
  have expected := @emsaPssEncode_padded sharedBackend.toRsaBackend _
    ((recordedErrand byte).input .blindRsa sharedDigest (sharedKeyId n)) _ _ _ rfl (if_pos padded)
  obtain rfl := Except.ok.inj (expected.symm.trans encodes)
  exact unit

/-- Two sessions of the recorded key with three candidates each are published with one law in both
orders. -/
theorem sessions_unlinkable_recorded :
    Unlinkability.published (uniformDraws recordedModulus recorded_exponents.odd.pos 3)
        (@sessions sharedBackend.toRsaBackend (pssKey recordedModulus (some recordedExponent))
          ⟨some (pssKey recordedModulus none), pssSpki recordedModulus⟩
          [recordedErrand 0x11, recordedErrand 0x12]) =
      Unlinkability.published (uniformDraws recordedModulus recorded_exponents.odd.pos 3)
        (@sessions sharedBackend.toRsaBackend (pssKey recordedModulus (some recordedExponent))
          ⟨some (pssKey recordedModulus none), pssSpki recordedModulus⟩
          [recordedErrand 0x12, recordedErrand 0x11]) := by
  have swapped {n d : Nat} (exponents : BlindSignature.RsaExponents n 65537 d)
      (bits : bnNumBits n = rsaBits) (left : (BigEndian.ofBytes (errandEncoded n 0x11)).Coprime n)
      (right : (BigEndian.ofBytes (errandEncoded n 0x12)).Coprime n) :
      Unlinkability.published (uniformDraws n exponents.odd.pos 3)
          (@sessions sharedBackend.toRsaBackend (pssKey n (some d)) ⟨some (pssKey n none), pssSpki n⟩
            [recordedErrand 0x11, recordedErrand 0x12]) =
        Unlinkability.published (uniformDraws n exponents.odd.pos 3)
          (@sessions sharedBackend.toRsaBackend (pssKey n (some d)) ⟨some (pssKey n none), pssSpki n⟩
            [recordedErrand 0x12, recordedErrand 0x11]) := by
    have pair := sharedKey_pair exponents bits
    have suits : ∀ errand ∈ [recordedErrand 0x11, recordedErrand 0x12], ∃ digest,
        @Errand.Suits sharedBackend.toRsaBackend errand (pssKey n none) (sharedKeyId n) .blindRsa
          digest := by
      intro errand member
      rcases List.mem_cons.mp member with rfl | second
      · exact ⟨_, recordedErrand_suits bits 0x11 left⟩
      · rw [List.mem_singleton.mp second]
        exact ⟨_, recordedErrand_suits bits 0x12 right⟩
    exact (@sessions_unlinkable sharedBackend.toRsaBackend _ _ _ _ _
      ⟨some (pssKey n none), pssSpki n⟩ _ sharedBackend_hashes sharedBackend_conforms pair rfl
      (@IssuerKeyPair.keyId_eq sharedBackend.toRsaBackend _ _ _ _ _ pair) (.inl rfl) _ suits).2
      [recordedErrand 0x12, recordedErrand 0x11] (.swap _ _ _) 3
  exact swapped recorded_exponents recordedModulus_bits (by decide +kernel) (by decide +kernel)

/-- The client holds the triple of the generator. -/
abbrev tripleClient : @VoprfClient hidingBackend.toCurveBackend :=
  @VoprfClient.mk hidingBackend.toCurveBackend
    (@VoprfPublicKey.mk hidingBackend.toEcBackend (some (hidingGroup.nsmul 3 (1 : ZMod 5))))

/-- The inputs `1` and `5` are evaluated in the group of order 5 and published with one law in both
orders. -/
theorem voprfSessions_unlinkable_small :
    Unlinkability.published (sessionLaw 5 (by decide) (PMF.pure [0, 4]))
        (@voprfSessions hidingBackend.toCurveBackend tripleClient ⟨⟨some 3⟩⟩ [[1], [5]]) =
      Unlinkability.published (sessionLaw 5 (by decide) (PMF.pure [0, 4]))
        (@voprfSessions hidingBackend.toCurveBackend tripleClient ⟨⟨some 3⟩⟩ [[5], [1]]) := by
  have one : (2 : ZMod 5) ≠ 0 := by decide
  have five : (1 : ZMod 5) ≠ 0 := by decide
  have short : ∀ input ∈ [[1], [(5 : UInt8)]], input.length ≤ 65535 := by decide
  have hashed : ∀ input ∈ [[1], [(5 : UInt8)]], ∃ H : ZMod 5,
      @hashToCurve hidingBackend.toCurveBackend input = .ok H ∧ H ≠ 0 := by
    intro input member
    rcases List.mem_cons.mp member with rfl | second
    · exact ⟨2, hashToCurve_one, one⟩
    · rw [List.mem_singleton.mp second]
      exact ⟨1, hashToCurve_five, five⟩
  exact (@voprfSessions_unlinkable hidingBackend.toCurveBackend hidingGroup (1 : ZMod 5)
    hidingBackend_conforms hidingBackend_card (fun _ => ⟨_, rfl⟩) 3 (by decide) (by decide) _ short
    hashed).2 [[5], [1]] (.swap _ _ _) (PMF.pure [0, 4])

end Instances

end PrivacyPass
