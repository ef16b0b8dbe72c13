import PrivacyPass.Construction.Origin

/-
This file proves what a public origin has checked when it accepts a token.
-/

namespace PrivacyPass

open Library Crypto

/-- A token passes the structural check exactly when its authenticator has the size of its type. -/
theorem Token.validate_eq_ok {token : Token} : token.validate = .ok () ↔
    (TokenTypeInfo.forType token.tokenType).authenticatorSize ≠ 0 ∧
      token.authenticator.length = (TokenTypeInfo.forType token.tokenType).authenticatorSize := by
  unfold Token.validate
  dsimp only
  split
  · next unknown => simp [unknown]
  split
  · next different => simp [different]
  · next known same => exact ⟨fun _ => ⟨known, not_not.mp same⟩, fun _ => rfl⟩

namespace PublicOrigin

variable [RsaBackend]

theorem addIssuerKey_replayCache (origin : PublicOrigin) (key : BlindRsaPublicKey) :
    (origin.addIssuerKey key).replayCache = origin.replayCache := by
  unfold addIssuerKey
  split <;> rfl

theorem create_replayCache (config : OriginConfig) (keys : List BlindRsaPublicKey) :
    (create config keys).replayCache =
      .create config.redemptionWindow config.maxReplayCacheSize := by
  have kept (origin : PublicOrigin) :
      (keys.foldl addIssuerKey origin).replayCache = origin.replayCache := by
    induction keys generalizing origin with
    | nil => rfl
    | cons key keys ih => rw [List.foldl_cons, ih, addIssuerKey_replayCache]
  exact kept (createEmpty config)

/-- The origin verifies with this key for this key id. -/
def HoldsKey (origin : PublicOrigin) (keyId : TokenKeyId) (key : BlindRsaPublicKey) : Prop :=
  ∃ index, origin.keyIndexByFullId.lookup keyId = some index ∧ origin.issuerKeys[index]? = some key

/-- An added key answers for its id, and the other ids keep their keys. -/
theorem holdsKey_addIssuerKey {origin : PublicOrigin} {key held : BlindRsaPublicKey}
    {keyId id : TokenKeyId} (named : key.keyId = .ok keyId) :
    (origin.addIssuerKey key).HoldsKey id held ↔
      if id = keyId then held = key else origin.HoldsKey id held := by
  unfold HoldsKey addIssuerKey
  simp only [named]
  split
  · next same =>
      subst same
      simp only [AList.lookup_insert, Option.some.injEq, exists_eq_left']
      rw [List.getElem?_concat_length, Option.some.injEq, eq_comm]
  · next different =>
      simp only [AList.lookup_insert_ne different]
      refine exists_congr fun index => and_congr_right fun found => ?_
      rw [List.getElem?_append_left (origin.inside id index found)]

/-- The key ids with a verification key are those of the added keys. -/
theorem addIssuerKey_of_error {origin : PublicOrigin} {key : BlindRsaPublicKey} {error : Error}
    (unnamed : key.keyId = .error error) : origin.addIssuerKey key = origin := by
  unfold addIssuerKey
  simp only [unnamed]

/-- The origin answers for a token exactly when the token has the expected form, carries the digest
of the challenge and names a held key, and then that key answers. -/
theorem verify_eq_ok {origin : PublicOrigin} {token : Token} {challenge : TokenChallenge}
    {answer : Bool} : origin.verify token challenge = .ok answer ↔
      token.validate = .ok () ∧
      (token.tokenType = .blindRsa ∨ token.tokenType = .partiallyBlindRsa) ∧
      challenge.digest.1 = .ok token.challengeDigest ∧
      ∃ key, origin.HoldsKey token.tokenKeyId key ∧
        key.verify (ByteWriter.build token.authenticatorInput.calls) token.authenticator = .ok answer := by
  unfold verify
  simp only [Result.bind_eq_ok]
  constructor
  · rintro ⟨⟨⟩, structured, success⟩
    refine ⟨structured, ?_⟩
    split at success
    · cases success
    · next typed =>
        obtain ⟨digest, digested, success⟩ := Result.bind_eq_ok.mp success
        split at success
        · cases success
        · next same =>
            rw [Bool.not_eq_false, constantTimeEqual_iff] at same
            split at success
            · cases success
            · next index found =>
                obtain ⟨bytes, serialized, verified⟩ := Result.bind_eq_ok.mp success
                cases serialized
                refine ⟨by tauto, by rw [digested, Subtype.ext same], _, ⟨index, found, ?_⟩, verified⟩
                rw [List.getElem?_eq_getElem (origin.inside _ _ found)]
                rfl
  · intro ⟨structured, typed, digested, key, ⟨index, found, held⟩, verified⟩
    refine ⟨(), structured, ?_⟩
    rw [if_neg (by tauto), Result.bind_eq_ok]
    refine ⟨token.challengeDigest, digested, ?_⟩
    rw [if_neg (by rw [Bool.not_eq_false, constantTimeEqual_iff])]
    split
    · next missing => rw [missing] at found; cases found
    · next other here =>
        rw [here] at found
        cases found
        rw [Result.bind_eq_ok]
        refine ⟨_, rfl, ?_⟩
        rw [List.getElem?_eq_getElem (origin.inside _ _ here)] at held
        cases held
        exact verified

end PublicOrigin

section Instances

def zeroPkey : EvpPkey := ⟨true, 2 ^ 2047 + 1, 65537, none, some 48, some "SHA384", some "SHA384"⟩

/-- This library hashes every message to zero, knows one key and accepts every signature. -/
abbrev zeroBackend : CryptoBackend where
  evpSha256 _ := some (.zero 32)
  evpSha384 _ := some (.zero 48)
  parsePublicKeySpki _ := some zeroPkey
  marshalPublicKey _ := some [0x30]
  paddingAddPkcs1Pss _ _ _ := none
  digestVerify _ _ _ := some true
  Point := Unit
  order := 1
  octToPoint _ := none
  isOnCurve _ := false
  isAtInfinity _ := true
  pointToOct _ := none
  mul _ _ := none
  mulGenerator _ := none
  add _ _ := none

def zeroKey : BlindRsaPublicKey := ⟨some zeroPkey, [0x30]⟩

def zeroToken : Token := ⟨.blindRsa, .zero 32, .zero 32, .zero 32, List.replicate 256 0⟩

def zeroChallenge : TokenChallenge := .create .blindRsa [0x69] none []

def zeroConfig : OriginConfig := { issuerName := [0x69], originNames := [] }

theorem zeroKey_keyId : @BlindRsaPublicKey.keyId zeroBackend.toRsaBackend zeroKey = .ok (.zero 32) := rfl

/-- An origin with the one key accepts the token of zeros. -/
theorem zeroToken_verified (config : OriginConfig) : @PublicOrigin.verify zeroBackend.toRsaBackend
    (@PublicOrigin.create zeroBackend.toRsaBackend config [zeroKey]) zeroToken zeroChallenge =
      .ok true := by
  refine (@PublicOrigin.verify_eq_ok zeroBackend.toRsaBackend ..).mpr
    ⟨Token.validate_eq_ok.mpr ⟨by decide, List.length_replicate⟩, .inl rfl, rfl, zeroKey, ?_, rfl⟩
  exact (@PublicOrigin.holdsKey_addIssuerKey zeroBackend.toRsaBackend _ _ _ _ _ zeroKey_keyId).mpr
    (by rw [if_pos (show zeroToken.tokenKeyId = .zero 32 from rfl)])

end Instances

end PrivacyPass
