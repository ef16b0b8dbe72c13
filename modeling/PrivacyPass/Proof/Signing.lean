import PrivacyPass.Construction.Crypto.Signing
import PrivacyPass.Proof.Unlinkability

/-
This file proves that an origin accepts the tokens of honest sessions and no others.
-/

namespace PrivacyPass

open Library Crypto

section Rsa

variable [SigningBackend]

/-- The crypto library signs with the power of a padding and accepts nothing but such signatures,
as RSASSA-PSS asks for. -/
structure PssStrict : Prop extends PssConforms where
  /-- A private key signs with the power of a padding for its public key. -/
  signs : ∀ (secret issued : EvpPkey) spki d msg salt digest encoded, IsPssKey issued →
    RsaBackend.marshalPublicKey secret = some spki → RsaBackend.parsePublicKeySpki spki = some issued →
    secret.n = issued.n → secret.d = some d → HashBackend.evpSha384 msg = some digest →
    salt.length = saltLength → RsaBackend.paddingAddPkcs1Pss issued digest salt = some encoded →
      SigningBackend.digestSign secret msg salt = some (rsaSignature issued.n d encoded)
  /-- An accepted signature is a reduced number whose power is a padding of the message. -/
  accepts : ∀ (pkey : EvpPkey) msg signature, IsPssKey pkey →
    RsaBackend.digestVerify pkey msg signature = some true →
      signature.length = rsaModulusSize ∧ BigEndian.ofBytes signature < pkey.n ∧
      ∃ digest salt encoded, HashBackend.evpSha384 msg = some digest ∧ salt.length = saltLength ∧
        RsaBackend.paddingAddPkcs1Pss pkey digest salt = some encoded ∧
        BigEndian.ofBytes signature ^ pkey.e % pkey.n = BigEndian.ofBytes encoded

variable {secret issued : EvpPkey} {d : Nat} {spki : Bytes} {keyId : TokenKeyId} {key : BlindRsaPublicKey}

/-- The holder of the key signs a message with the padding that its users blind. -/
theorem PssStrict.sign_eq (hashes : HashesSucceed) (pss : PssStrict)
    (pair : IssuerKeyPair secret issued d spki keyId) (msg : Bytes) {salt : Bytes}
    (salted : salt.length = saltLength) : ∃ encoded,
      emsaPssEncode issued msg salt = .ok encoded ∧
      (⟨some secret⟩ : BlindRsaPrivateKey).sign msg salt = .ok (rsaSignature issued.n d encoded) := by
  obtain ⟨digest, encoded, hashed, padded, encodes, -, -⟩ :=
    emsaPssEncode_ok hashes pss.toPssConforms pair.isPssKey msg salted
  have signed := pss.signs secret issued spki d msg salt digest encoded pair.isPssKey pair.marshalled
    pair.parsed pair.modulus pair.known hashed salted padded
  refine ⟨encoded, encodes, ?_⟩
  rw [BlindRsaPrivateKey.sign]
  simp only [signed]

/-- An accepted signature is one that the holder of the key makes with some salt. -/
theorem PssStrict.signed_of_verify (hashes : HashesSucceed) (pss : PssStrict)
    (pair : IssuerKeyPair secret issued d spki keyId) (held : key.pkey = some issued)
    {msg signature : Bytes} (verified : key.verify msg signature = .ok true) :
    ∃ salt, salt.length = saltLength ∧
      (⟨some secret⟩ : BlindRsaPrivateKey).sign msg salt = .ok signature := by
  have accepted : RsaBackend.digestVerify issued msg signature = some true := by
    rw [BlindRsaPublicKey.verify, held] at verified
    cases answered : RsaBackend.digestVerify issued msg signature with
    | none => simp [answered] at verified
    | some answer =>
        simp only [answered] at verified
        rw [Except.ok.inj verified]
  obtain ⟨size, below, digest, salt, encoded, hashed, salted, padded, power⟩ :=
    pss.accepts issued msg signature pair.isPssKey accepted
  obtain ⟨other, encodes, signed⟩ := pss.sign_eq hashes pair msg salted
  obtain rfl := Except.ok.inj ((emsaPssEncode_padded hashed padded).symm.trans encodes)
  refine ⟨salt, salted, signed.trans (congrArg Except.ok ?_)⟩
  calc rsaSignature issued.n d encoded
      = BigEndian.toBytes 256 ((BigEndian.ofBytes signature ^ issued.e % issued.n) ^ d % issued.n) := by
        rw [rsaSignature, power]
    _ = BigEndian.toBytes 256 (BigEndian.ofBytes signature) := by rw [pair.exponents.symm.check_mod below]
    _ = signature := by
        have whole := BigEndian.toBytes_ofBytes signature
        rwa [size] at whole

/-- A signed input makes the token of every session with its salt. -/
theorem PssStrict.session_of_sign (hashes : HashesSucceed) (pss : PssStrict)
    (pair : IssuerKeyPair secret issued d spki keyId) (held : key.pkey = some issued)
    (named : key.keyId = .ok keyId) {challenge : TokenChallenge}
    (rsa : challenge.tokenType = .blindRsa ∨ challenge.tokenType = .partiallyBlindRsa) {token : Token}
    (typed : token.tokenType = challenge.tokenType) (keyed : token.tokenKeyId = keyId)
    (digested : challenge.digest.1 = .ok token.challengeDigest) {salt : Bytes}
    (salted : salt.length = saltLength)
    (signed : (⟨some secret⟩ : BlindRsaPrivateKey).sign token.authenticatorInput.wire salt =
      .ok token.authenticator) {factors : List Nat}
    (invertible : ∃ r ∈ factors, r ≠ 0 ∧ Nat.gcd r issued.n = 1) :
    ∃ view, (⟨challenge, token.nonce, salt⟩ : Errand).session (.create ⟨some secret⟩) key factors =
      .ok (view, token) := by
  obtain ⟨bits, -⟩ := validateRsaParams_ok pair.valid
  obtain ⟨type, nonce, digest, id, authenticator⟩ := token
  obtain rfl : type = challenge.tokenType := typed
  obtain rfl : id = keyId := keyed
  let errand : Errand := ⟨challenge, nonce, salt⟩
  obtain ⟨encoded, encodes, -, settled⟩ := @Errand.session_eq _ _ _ _ _ _ _ _ errand _
    hashes pss.toPssConforms pair held named rsa rfl salted digested
  obtain ⟨other, again, made⟩ := pss.sign_eq hashes pair
    (errand.input challenge.tokenType digest id) salted
  obtain rfl := Except.ok.inj (encodes.symm.trans again)
  obtain rfl := Except.ok.inj (made.symm.trans signed)
  obtain ⟨blinded, sent⟩ := (sentMsg_isSome held pair.exponents.odd (bnNumBytes_of_bits bits) encodes
    factors).mpr invertible
  have ended := settled factors
  rw [sent] at ended
  exact ⟨_, Result.toOption_eq_some.mp ended⟩

/-- A session that ends has made a token that every key object with the public key accepts. -/
theorem Errand.verified_of_session (hashes : HashesSucceed) (pss : PssConforms)
    (pair : IssuerKeyPair secret issued d spki keyId) (held : key.pkey = some issued)
    (named : key.keyId = .ok keyId) {errand : Errand}
    (rsa : errand.challenge.tokenType = .blindRsa ∨ errand.challenge.tokenType = .partiallyBlindRsa)
    (salted : errand.salt.length = saltLength) {factors : List Nat} {view : Bytes × Bytes} {token : Token}
    (ended : errand.session (.create ⟨some secret⟩) key factors = .ok (view, token)) :
    token.tokenType = errand.challenge.tokenType ∧ token.tokenKeyId = keyId ∧
      errand.challenge.digest.1 = .ok token.challengeDigest ∧ token.authenticator.length = 256 ∧
      ∀ other : BlindRsaPublicKey, other.pkey = some issued →
        other.verify token.authenticatorInput.wire token.authenticator = .ok true := by
  obtain ⟨created, asked, -⟩ := Result.bind_eq_ok.mp ended
  obtain ⟨-, digest, -, -, digested, -⟩ := PublicClient.createTokenRequest_eq_ok asked
  obtain ⟨encoded, -, verified, settled⟩ :=
    Errand.session_eq hashes pss pair held named rsa rfl salted digested
  have shown := settled factors
  rw [Result.toOption_eq_some.mpr ended] at shown
  obtain ⟨blinded, -, equal⟩ := Option.map_eq_some_iff.mp shown.symm
  obtain ⟨-, rfl⟩ := Prod.mk.inj equal
  refine ⟨rfl, rfl, digested, BigEndian.toBytes_length _ _, ?_⟩
  intro other copied
  have same (msg signature : Bytes) : other.verify msg signature = key.verify msg signature := by
    rw [BlindRsaPublicKey.verify, BlindRsaPublicKey.verify, held, copied]
  exact (same _ _).trans verified

/-- An origin with the key accepts a token for a challenge exactly when the holder of the key signs
the input of the token with some salt, and exactly when every session for the challenge with the
nonce of the token and some salt makes this token, whatever the blinding factor is. -/
theorem accepted_tfae (hashes : HashesSucceed) (pss : PssStrict)
    (pair : IssuerKeyPair secret issued d spki keyId) (held : key.pkey = some issued)
    (named : key.keyId = .ok keyId) {origin : PublicOrigin} {stored : BlindRsaPublicKey}
    (holds : origin.HoldsKey keyId stored) (copied : stored.pkey = some issued)
    {challenge : TokenChallenge}
    (rsa : challenge.tokenType = .blindRsa ∨ challenge.tokenType = .partiallyBlindRsa) (token : Token) :
    List.TFAE [
      origin.verify token challenge = .ok true ∧ token.tokenKeyId = keyId ∧
        token.tokenType = challenge.tokenType,
      challenge.digest.1 = .ok token.challengeDigest ∧ token.tokenKeyId = keyId ∧
        token.tokenType = challenge.tokenType ∧ ∃ salt, salt.length = saltLength ∧
          (⟨some secret⟩ : BlindRsaPrivateKey).sign token.authenticatorInput.wire salt =
            .ok token.authenticator,
      ∃ salt, salt.length = saltLength ∧ ∀ factors, (∃ r ∈ factors, r ≠ 0 ∧ Nat.gcd r issued.n = 1) →
        ∃ view, (⟨challenge, token.nonce, salt⟩ : Errand).session (.create ⟨some secret⟩) key factors =
          .ok (view, token)] := by
  tfae_have 1 → 2 := by
    rintro ⟨verified, keyed, typed⟩
    obtain ⟨-, -, digested, other, found, answered⟩ := PublicOrigin.verify_eq_ok.mp verified
    have same : other = stored := by
      rw [keyed] at found
      obtain ⟨index, looked, entry⟩ := found
      obtain ⟨place, again, kept⟩ := holds
      obtain rfl := Option.some.inj (looked.symm.trans again)
      exact Option.some.inj (entry.symm.trans kept)
    rw [same, AuthenticatorInput.build_calls] at answered
    exact ⟨digested, keyed, typed, pss.signed_of_verify hashes pair copied answered⟩
  tfae_have 2 → 3 := by
    rintro ⟨digested, keyed, typed, salt, salted, signed⟩
    refine ⟨salt, salted, fun factors invertible => ?_⟩
    exact pss.session_of_sign hashes pair held named rsa typed keyed digested salted signed invertible
  tfae_have 3 → 1 := by
    rintro ⟨salt, salted, made⟩
    obtain ⟨view, ended⟩ := made [1] ⟨1, List.mem_cons_self, one_ne_zero, Nat.gcd_one_left _⟩
    obtain ⟨typed, keyed, digested, size, verified⟩ :=
      Errand.verified_of_session hashes pss.toPssConforms pair held named rsa salted ended
    rw [← keyed] at holds
    exact ⟨PublicOrigin.verify_signed (by rwa [typed]) size digested holds (verified stored copied),
      keyed, typed⟩
  tfae_finish

end Rsa

section Instances

open MultiKeyIssuer (sharedBackend sharedBackend_hashes sharedBackend_conforms sharedKeyId sharedKey_pair
  sharedDigest sharedDigest_eq)

/-- This library signs the encodings of the standard. -/
abbrev signingBackend : SigningBackend :=
  { sharedBackend.toRsaBackend with
    digestSign := fun pkey msg salt =>
      if bnNumBits pkey.n = rsaBits ∧ salt.length = saltLength then
        pkey.d.map fun d =>
          rsaSignature pkey.n d (Pss.encode pssScheme (totalHash 48 exchangeSha384 msg).val salt)
      else none }

theorem signingBackend_strict : @PssStrict signingBackend := by
  refine @PssStrict.mk signingBackend sharedBackend_conforms ?_ ?_
  · intro secret issued spki d msg salt digest encoded keyed _ _ modulus known hashed salted padded
    obtain ⟨-, equal⟩ := pssBackend_padding padded
    have digested : totalHash 48 exchangeSha384 msg = digest := Option.some.inj hashed
    have sized : bnNumBits secret.n = rsaBits ∧ salt.length = saltLength :=
      ⟨by rw [modulus, keyed.bits], salted⟩
    rw [equal, ← digested, ← modulus]
    exact (if_pos sized).trans (congrArg (Option.map _) known)
  · intro pkey msg signature keyed accepted
    have bits := keyed.bits
    change some (decide _ && Pss.verify pssScheme (totalHash 48 exchangeSha384 msg).val _) = some true
      at accepted
    obtain ⟨range, verified⟩ := Bool.and_eq_true_iff.mp (Option.some.inj accepted)
    obtain ⟨size, below⟩ := of_decide_eq_true range
    obtain ⟨salted, encodes⟩ := of_decide_eq_true verified
    refine ⟨size, below, _, _, _, rfl, salted, if_pos ⟨bits, salted⟩, ?_⟩
    have reduced := Nat.mod_lt (BigEndian.ofBytes signature ^ pkey.e) (Nat.zero_lt_of_lt below)
    rw [encodes]
    exact (BigEndian.ofBytes_toBytes (reduced.trans (lt_of_bits bits))).symm

/-- The holder of the key signs the input of this token with the recorded salt. -/
def signedToken (n d : Nat) : Token :=
  ⟨.blindRsa, (recordedErrand 0x11).nonce, sharedDigest, sharedKeyId n,
    rsaSignature n d (errandEncoded n 0x11)⟩

theorem signedToken_input (n d : Nat) : (signedToken n d).authenticatorInput.wire =
    (recordedErrand 0x11).input .blindRsa sharedDigest (sharedKeyId n) := by
  simp only [signedToken, Token.authenticatorInput, recordedErrand]

theorem signedToken_signed {n d : Nat} (bits : bnNumBits n = rsaBits) :
    @BlindRsaPrivateKey.sign signingBackend ⟨some (pssKey n (some d))⟩
      (signedToken n d).authenticatorInput.wire (List.replicate 48 0x22) =
        .ok (signedToken n d).authenticator := by
  have sized : bnNumBits (pssKey n (some d)).n = rsaBits ∧
      (List.replicate 48 (0x22 : UInt8)).length = saltLength := ⟨bits, List.length_replicate⟩
  have signed : signingBackend.digestSign (pssKey n (some d))
      (signedToken n d).authenticatorInput.wire (List.replicate 48 0x22) =
        some (rsaSignature n d (errandEncoded n 0x11)) := by
    rw [signedToken_input, errandEncoded]
    exact if_pos sized
  rw [@BlindRsaPrivateKey.sign.eq_1 signingBackend]
  simp only [signed]
  rw [signedToken]

abbrev recordedOrigin (n : Nat) : PublicOrigin :=
  @PublicOrigin.create signingBackend.toRsaBackend zeroConfig [⟨some (pssKey n none), pssSpki n⟩]

/-- The origin of the recorded key accepts the signed token, and every session with one salt makes
it. -/
theorem accepted_tfae_recorded :
    @PublicOrigin.verify signingBackend.toRsaBackend (recordedOrigin recordedModulus)
      (signedToken recordedModulus recordedExponent) pssChallenge = .ok true ∧
    ∃ salt, salt.length = saltLength ∧
      ∀ factors, (∃ r ∈ factors, r ≠ 0 ∧ Nat.gcd r recordedModulus = 1) → ∃ view,
        @Errand.session signingBackend.toRsaBackend
          ⟨pssChallenge, (signedToken recordedModulus recordedExponent).nonce, salt⟩
          (@PublicIssuer.create signingBackend.toRsaBackend
            ⟨some (pssKey recordedModulus (some recordedExponent))⟩)
          ⟨some (pssKey recordedModulus none), pssSpki recordedModulus⟩ factors =
            .ok (view, signedToken recordedModulus recordedExponent) := by
  have signs {n d : Nat} (exponents : BlindSignature.RsaExponents n 65537 d)
      (bits : bnNumBits n = rsaBits) :
      @PublicOrigin.verify signingBackend.toRsaBackend (recordedOrigin n) (signedToken n d) pssChallenge =
        .ok true ∧
      ∃ salt, salt.length = saltLength ∧ ∀ factors, (∃ r ∈ factors, r ≠ 0 ∧ Nat.gcd r n = 1) → ∃ view,
        @Errand.session signingBackend.toRsaBackend ⟨pssChallenge, (signedToken n d).nonce, salt⟩
          (@PublicIssuer.create signingBackend.toRsaBackend ⟨some (pssKey n (some d))⟩)
          ⟨some (pssKey n none), pssSpki n⟩ factors = .ok (view, signedToken n d) := by
    have pair := sharedKey_pair exponents bits
    have named := @IssuerKeyPair.keyId_eq sharedBackend.toRsaBackend _ _ _ _ _ pair
    have holds : (recordedOrigin n).HoldsKey (sharedKeyId n) ⟨some (pssKey n none), pssSpki n⟩ :=
      (@PublicOrigin.holdsKey_addIssuerKey signingBackend.toRsaBackend _ _ _ _ _ named).mpr
        (by rw [if_pos rfl])
    have digested : (@TokenChallenge.digest signingBackend.toHashBackend pssChallenge).1 =
        .ok (signedToken n d).challengeDigest := by
      simp only [signedToken]
      exact sharedDigest_eq
    have keyed : (signedToken n d).tokenKeyId = sharedKeyId n := by
      rw [signedToken]
    have typed : (signedToken n d).tokenType = pssChallenge.tokenType := by
      rw [signedToken]
      rfl
    have alike := @accepted_tfae signingBackend _ _ _ _ _ ⟨some (pssKey n none), pssSpki n⟩
      sharedBackend_hashes signingBackend_strict pair rfl named _ _ holds rfl pssChallenge (.inl rfl)
      (signedToken n d)
    have accepts := alike.out 1 0
    have makes := alike.out 1 2
    have signed : ∃ salt, salt.length = saltLength ∧ @BlindRsaPrivateKey.sign signingBackend
        ⟨some (pssKey n (some d))⟩ (signedToken n d).authenticatorInput.wire salt =
          .ok (signedToken n d).authenticator :=
      ⟨List.replicate 48 0x22, List.length_replicate, signedToken_signed bits⟩
    exact ⟨(accepts.mp ⟨digested, keyed, typed, signed⟩).1, makes.mp ⟨digested, keyed, typed, signed⟩⟩
  exact signs recorded_exponents recordedModulus_bits

end Instances

end PrivacyPass
