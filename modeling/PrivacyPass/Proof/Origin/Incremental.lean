import PrivacyPass.Proof.Crypto.BlindRsa
import PrivacyPass.Proof.Issuer.MultiKey
import PrivacyPass.Proof.Origin.Verify

/-
This file proves that an origin that gains its keys one by one verifies as one that is built from
all of them.
-/

namespace PrivacyPass

open Library Crypto

namespace PublicOrigin

variable [RsaBackend]

/-- The key that the origin verifies with for this key id. -/
def heldKey (origin : PublicOrigin) (id : TokenKeyId) : Option BlindRsaPublicKey :=
  (origin.keyIndexByFullId.lookup id).bind fun index => origin.issuerKeys[index]?

omit [RsaBackend] in
theorem heldKey_eq_some {origin : PublicOrigin} {id : TokenKeyId} {key : BlindRsaPublicKey} :
    origin.heldKey id = some key ↔ origin.HoldsKey id key := Option.bind_eq_some_iff

theorem create_concat (config : OriginConfig) (keys : List BlindRsaPublicKey) (key : BlindRsaPublicKey) :
    create config (keys ++ [key]) = (create config keys).addIssuerKey key := by
  rw [create, List.foldl_append]
  rfl

/-- An added key answers for its id, and a key without an id for none. -/
theorem heldKey_addIssuerKey (origin : PublicOrigin) (key : BlindRsaPublicKey) (id : TokenKeyId) :
    (origin.addIssuerKey key).heldKey id =
      if key.keyId = .ok id then some key else origin.heldKey id := by
  cases named : key.keyId with
  | error error => rw [addIssuerKey_of_error named, if_neg (by simp)]
  | ok keyId =>
      ext held
      rw [heldKey_eq_some, holdsKey_addIssuerKey named]
      by_cases same : id = keyId
      · simp [same, eq_comm]
      · simp [same, Ne.symm same, heldKey_eq_some]

/-- The key that was added last with an id answers for it. -/
theorem heldKey_create (config : OriginConfig) (keys : List BlindRsaPublicKey) (id : TokenKeyId) :
    (create config keys).heldKey id = keys.reverse.find? fun key => decide (key.keyId = .ok id) := by
  induction keys using List.reverseRecOn with
  | nil => rfl
  | append_singleton keys key ih =>
      rw [create_concat, heldKey_addIssuerKey, ih, List.reverse_concat, List.find?_cons]
      by_cases named : key.keyId = .ok id
      · simp [named]
      · simp [named]

/-- The answer of the key that the token names. -/
def heldAnswer (origin : PublicOrigin) (token : Token) : Option (Result Bool) :=
  (origin.heldKey token.tokenKeyId).map fun key =>
    key.verify (ByteWriter.build token.authenticatorInput.calls) token.authenticator

theorem lookup_heldAnswer (origin : PublicOrigin) (token : Token) :
    (match found : origin.keyIndexByFullId.lookup token.tokenKeyId with
      | none => .error ⟨.issuerUnknown, "Unknown issuer key"⟩
      | some index => do
          let key := origin.issuerKeys.get ⟨index, origin.inside _ _ found⟩
          let authInputBytes ← token.authenticatorInput.serialize
          key.verify authInputBytes token.authenticator : Result Bool) =
      (origin.heldAnswer token).getD (.error ⟨.issuerUnknown, "Unknown issuer key"⟩) := by
  unfold heldAnswer heldKey
  split
  · next missing => simp only [missing, Option.bind_none, Option.map_none, Option.getD_none]
  · next index found =>
      simp only [found, Option.bind_some, List.getElem?_eq_getElem (origin.inside _ _ found),
        Option.map_some, Option.getD_some]
      rfl

/-- The verification reads nothing of the origin but the answer of the key that the token names. -/
theorem verify_congr {left right : PublicOrigin} {token : Token} (challenge : TokenChallenge)
    (same : left.heldAnswer token = right.heldAnswer token) :
    left.verify token challenge = right.verify token challenge := by
  unfold verify
  apply bind_congr
  intro structured
  split
  · rfl
  apply bind_congr
  intro digest
  split
  · rfl
  · refine (lookup_heldAnswer left token).trans (Eq.trans ?_ (lookup_heldAnswer right token).symm)
    rw [same]

end PublicOrigin

section Copies

variable [CryptoBackend]

/-- The encoding of a parsed key of the right size parses to the same key. -/
def MarshalConforms : Prop :=
  ∀ spki pkey, RsaBackend.parsePublicKeySpki spki = some pkey →
    validateRsaParams pkey rsaBits rsaPublicExponent = .ok () →
      ∃ encoded, RsaBackend.marshalPublicKey pkey = some encoded ∧
        encoded.length ≤ maxInputSize ∧ RsaBackend.parsePublicKeySpki encoded = some pkey

/-- The copy of the key answers to the key id exactly when the key does. -/
def CopyAnswersTo (id : TokenKeyId) (key : BlindRsaPublicKey) : Prop :=
  ∀ copy, Origin.copyRsaKey key = .ok copy → (copy.keyId = .ok id ↔ key.keyId = .ok id)

/-- A parsed key has a copy with the same key of the library. -/
theorem copyRsaKey_parsed (conforms : MarshalConforms) {spki : Bytes} {key : BlindRsaPublicKey}
    (parsed : BlindRsaPublicKey.fromSpki spki = .ok key) :
    ∃ copy, Origin.copyRsaKey key = .ok copy ∧ copy.pkey = key.pkey := by
  obtain ⟨-, pkey, parses, valid, rfl⟩ := fromSpki_eq_ok.mp parsed
  obtain ⟨encoded, marshalled, short, again⟩ := conforms spki pkey parses valid
  refine ⟨⟨some pkey, encoded⟩, ?_, rfl⟩
  rw [Origin.copyRsaKey, Result.bind_eq_ok]
  refine ⟨encoded, ?_, fromSpki_eq_ok.mpr ⟨short, pkey, again, valid, rfl⟩⟩
  simp only [BlindRsaPublicKey.toSpki, marshalPublicKey, marshalled]

/-- A key that was read from its own encoding is its own copy. -/
theorem copyAnswersTo_canonical {spki : Bytes} {pkey : EvpPkey}
    (parsed : BlindRsaPublicKey.fromSpki spki = .ok ⟨some pkey, spki⟩)
    (canonical : RsaBackend.marshalPublicKey pkey = some spki) (id : TokenKeyId) :
    CopyAnswersTo id ⟨some pkey, spki⟩ := by
  intro copy copied
  rw [Origin.copyRsaKey, BlindRsaPublicKey.toSpki] at copied
  simp only [marshalPublicKey, canonical] at copied
  cases parsed.symm.trans copied
  rfl

theorem verify_of_pkey {left right : BlindRsaPublicKey} (same : left.pkey = right.pkey)
    (msg signature : Bytes) : left.verify msg signature = right.verify msg signature := by
  unfold BlindRsaPublicKey.verify
  rw [same]

/-- The copies of the keys that have one, in the order of the keys. -/
def Origin.copiedKeys (keys : List BlindRsaPublicKey) : List BlindRsaPublicKey :=
  keys.filterMap fun key => (copyRsaKey key).toOption

theorem Origin.copiedKeys_concat {keys : List BlindRsaPublicKey} {key copy : BlindRsaPublicKey}
    (copied : copyRsaKey key = .ok copy) : copiedKeys (keys ++ [key]) = copiedKeys keys ++ [copy] := by
  rw [copiedKeys, List.filterMap_append, List.filterMap_cons, copied]
  rfl

theorem Origin.copiedKeys_concat_of_error {keys : List BlindRsaPublicKey} {key : BlindRsaPublicKey}
    {error : Error} (uncopied : copyRsaKey key = .error error) :
    copiedKeys (keys ++ [key]) = copiedKeys keys := by
  rw [copiedKeys, List.filterMap_append, List.filterMap_cons, uncopied]
  exact List.append_nil _

/-- The public origin of a unified origin holds the copied keys, once there is one. -/
theorem Origin.publicOrigin_addBlindRsaKeys (config : OriginConfig) (keys : List BlindRsaPublicKey) :
    (keys.foldl addBlindRsaKey (create config)).config = config ∧
      (keys.foldl addBlindRsaKey (create config)).publicOrigin =
        if copiedKeys keys = [] then none else some (.create config (copiedKeys keys)) := by
  induction keys using List.reverseRecOn with
  | nil => exact ⟨rfl, rfl⟩
  | append_singleton keys key ih =>
      obtain ⟨configured, held⟩ := ih
      rw [List.foldl_append, List.foldl_cons, List.foldl_nil]
      generalize keys.foldl addBlindRsaKey (create config) = origin at configured held ⊢
      unfold addBlindRsaKey
      cases copied : copyRsaKey key with
      | error error =>
          rw [copiedKeys_concat_of_error copied]
          exact ⟨configured, held⟩
      | ok copy =>
          rw [copiedKeys_concat copied, if_neg (List.append_ne_nil_of_right_ne_nil _ (List.cons_ne_nil _ _)),
            PublicOrigin.create_concat]
          dsimp only
          rw [held]
          split_ifs with empty
          · rw [empty]
            exact ⟨configured, by rw [configured]; rfl⟩
          · exact ⟨configured, rfl⟩

theorem Origin.copiedKeys_ne_nil (conforms : MarshalConforms) {keys : List BlindRsaPublicKey}
    (parsed : ∀ key ∈ keys, ∃ spki, BlindRsaPublicKey.fromSpki spki = .ok key) (some : keys ≠ []) :
    copiedKeys keys ≠ [] := by
  obtain ⟨key, member⟩ := List.exists_mem_of_ne_nil keys some
  obtain ⟨spki, read⟩ := parsed key member
  obtain ⟨copy, copied, -⟩ := copyRsaKey_parsed conforms read
  exact List.ne_nil_of_mem (List.mem_filterMap.mpr ⟨key, member, by rw [copied]; rfl⟩)

/-- The copies of the keys give the token the answer that the keys give it. -/
theorem heldAnswer_copiedKeys (conforms : MarshalConforms) (config : OriginConfig)
    {keys : List BlindRsaPublicKey} {token : Token}
    (parsed : ∀ key ∈ keys, ∃ spki, BlindRsaPublicKey.fromSpki spki = .ok key)
    (answers : ∀ key ∈ keys, CopyAnswersTo token.tokenKeyId key) :
    (PublicOrigin.create config (Origin.copiedKeys keys)).heldAnswer token =
      (PublicOrigin.create config keys).heldAnswer token := by
  unfold PublicOrigin.heldAnswer
  rw [PublicOrigin.heldKey_create, PublicOrigin.heldKey_create]
  induction keys using List.reverseRecOn with
  | nil => rfl
  | append_singleton keys key ih =>
      obtain ⟨spki, read⟩ := parsed key (by simp)
      obtain ⟨copy, copied, same⟩ := copyRsaKey_parsed conforms read
      have alike := answers key (by simp) copy copied
      have earlier := ih (fun key member => parsed key (List.mem_append_left _ member))
        (fun key member => answers key (List.mem_append_left _ member))
      rw [Origin.copiedKeys_concat copied, List.reverse_concat, List.reverse_concat, List.find?_cons,
        List.find?_cons, decide_eq_decide.mpr alike]
      cases named : decide (key.keyId = .ok token.tokenKeyId) with
      | true => exact congrArg some (verify_of_pkey same _ _)
      | false => exact earlier

/-- An origin that gains parsed keys one by one answers for a token as one that is built from all of
them, and for the two RSA types it fails alike once it has a key. -/
theorem Origin.verify_addBlindRsaKeys (conforms : MarshalConforms) (config : OriginConfig)
    (keys : List BlindRsaPublicKey)
    (parsed : ∀ key ∈ keys, ∃ spki, BlindRsaPublicKey.fromSpki spki = .ok key) (token : Token)
    (challenge : TokenChallenge) (answers : ∀ key ∈ keys, CopyAnswersTo token.tokenKeyId key) :
    (∀ answer, (keys.foldl addBlindRsaKey (create config)).verify token challenge = .ok answer ↔
      (PublicOrigin.create config keys).verify token challenge = .ok answer) ∧
    (keys ≠ [] → token.tokenType = .blindRsa ∨ token.tokenType = .partiallyBlindRsa →
      (keys.foldl addBlindRsaKey (create config)).verify token challenge =
        (PublicOrigin.create config keys).verify token challenge) := by
  obtain ⟨-, held⟩ := publicOrigin_addBlindRsaKeys config keys
  have agree (some : keys ≠ []) (typed : token.tokenType = .blindRsa ∨ token.tokenType = .partiallyBlindRsa) :
      (keys.foldl addBlindRsaKey (create config)).verify token challenge =
        (PublicOrigin.create config keys).verify token challenge := by
    rw [if_neg (copiedKeys_ne_nil conforms parsed some)] at held
    rw [verify, if_pos typed, held]
    exact PublicOrigin.verify_congr challenge (heldAnswer_copiedKeys conforms config parsed answers)
  refine ⟨?_, agree⟩
  intro answer
  by_cases typed : token.tokenType = .blindRsa ∨ token.tokenType = .partiallyBlindRsa
  · by_cases empty : keys = []
    · -- without a key neither origin answers
      subst empty
      rw [PublicOrigin.verify_eq_ok, verify, if_pos typed, held]
      constructor
      · intro answered
        cases answered
      · intro ⟨_, _, _, key, holds, _⟩
        exact absurd holds (by rw [← PublicOrigin.heldKey_eq_some, PublicOrigin.heldKey_create]; simp)
    · rw [agree empty typed]
  · -- neither origin answers for a token of another type
    rw [PublicOrigin.verify_eq_ok, verify, if_neg typed]
    constructor
    · intro answered
      split at answered <;> cases answered
    · intro ⟨_, known, _⟩
      exact absurd known typed

end Copies

section Instances

open MultiKeyIssuer (sharedBackend sharedRsaKey sharedRsaKey_keyId sharedRsaKey_parsed sharedKeyId
  sharedToken sharedTokenOf_held sharedDigest_eq recordedModulus_rival rivalModulus rival_exponents
  rivalModulus_bits)

/-- A key of the standard is read from its own encoding only. -/
theorem parsePssSpki_eq_some {spki : Bytes} {pkey : EvpPkey} (parses : parsePssSpki spki = some pkey) :
    pssSpki pkey.n = spki := by
  unfold parsePssSpki at parses
  dsimp only at parses
  split at parses
  · next canonical =>
      rw [← Option.some.inj parses, pssKey]
      exact canonical
  · cases parses

/-- A library that reads and writes keys of the standard reads what it writes. -/
theorem marshalConforms_of_pss (backend : CryptoBackend)
    (parses : backend.parsePublicKeySpki = parsePssSpki)
    (marshals : backend.marshalPublicKey = fun pkey => some (pssSpki pkey.n)) :
    @MarshalConforms backend := by
  intro spki pkey parsed valid
  rw [parses] at parsed
  have canonical := parsePssSpki_eq_some parsed
  have short : spki.length ≤ maxInputSize := by
    rw [← canonical, pssSpki, List.length_append, List.length_append, BigEndian.toBytes_length]
    decide
  exact ⟨spki, by rw [marshals]; exact congrArg some canonical, short, by rw [parses]; exact parsed⟩

/-- An origin that gains two keys one by one accepts the token of the first key. -/
theorem Origin.verify_addBlindRsaKeys_recorded :
    @Origin.verify sharedBackend.toCryptoBackend
      ([sharedRsaKey recordedModulus, sharedRsaKey rivalModulus].foldl
        (@Origin.addBlindRsaKey sharedBackend.toCryptoBackend)
        (@Origin.create sharedBackend.toCryptoBackend zeroConfig))
      (sharedToken recordedModulus recordedExponent) pssChallenge = .ok true := by
  have follows {n d m k : Nat} (exponents : BlindSignature.RsaExponents n 65537 d)
      (bits : bnNumBits n = rsaBits) (rival : BlindSignature.RsaExponents m 65537 k)
      (rivalBits : bnNumBits m = rsaBits) (different : sharedKeyId n ≠ sharedKeyId m) :
      @Origin.verify sharedBackend.toCryptoBackend ([sharedRsaKey n, sharedRsaKey m].foldl
        (@Origin.addBlindRsaKey sharedBackend.toCryptoBackend)
        (@Origin.create sharedBackend.toCryptoBackend zeroConfig)) (sharedToken n d) pssChallenge =
          .ok true := by
    have read (key : BlindRsaPublicKey) (member : key ∈ [sharedRsaKey n, sharedRsaKey m]) :
        ∃ spki, @BlindRsaPublicKey.fromSpki sharedBackend.toRsaBackend spki = .ok key := by
      simp only [List.mem_cons, List.not_mem_nil, or_false] at member
      rcases member with rfl | rfl
      · exact ⟨_, sharedRsaKey_parsed exponents bits⟩
      · exact ⟨_, sharedRsaKey_parsed rival rivalBits⟩
    have answers (key : BlindRsaPublicKey) (member : key ∈ [sharedRsaKey n, sharedRsaKey m]) :
        @CopyAnswersTo sharedBackend.toCryptoBackend (sharedToken n d).tokenKeyId key := by
      simp only [List.mem_cons, List.not_mem_nil, or_false] at member
      rcases member with rfl | rfl
      · exact @copyAnswersTo_canonical sharedBackend.toCryptoBackend _ _
          (sharedRsaKey_parsed exponents bits) rfl _
      · exact @copyAnswersTo_canonical sharedBackend.toCryptoBackend _ _
          (sharedRsaKey_parsed rival rivalBits) rfl _
    have holds : (@PublicOrigin.create sharedBackend.toRsaBackend zeroConfig
        [sharedRsaKey n, sharedRsaKey m]).HoldsKey (sharedKeyId n) (sharedRsaKey n) := by
      refine (@PublicOrigin.holdsKey_addIssuerKey sharedBackend.toRsaBackend _ _ _ _ _
        (sharedRsaKey_keyId rival rivalBits)).mpr ?_
      rw [if_neg different]
      refine (@PublicOrigin.holdsKey_addIssuerKey sharedBackend.toRsaBackend _ _ _ _ _
        (sharedRsaKey_keyId exponents bits)).mpr ?_
      rw [if_pos rfl]
    have agree := @Origin.verify_addBlindRsaKeys sharedBackend.toCryptoBackend
      (marshalConforms_of_pss sharedBackend.toCryptoBackend rfl rfl) zeroConfig
      [sharedRsaKey n, sharedRsaKey m] read (sharedToken n d) pssChallenge answers
    exact (agree.1 true).mpr (sharedTokenOf_held sharedDigest_eq exponents bits holds)
  exact follows recorded_exponents recordedModulus_bits rival_exponents rivalModulus_bits
    recordedModulus_rival.1

/-- This library reads a key with any bytes behind it, and it tells the encoding of the key from all
other bytes. -/
abbrev looseBackend : CryptoBackend :=
  { zeroBackend with
    evpSha256 := fun data => some (if data = [0x30] then .zero 32 else ⟨List.replicate 32 1, rfl⟩)
    parsePublicKeySpki := fun spki => if spki.head? = some 0x30 then some zeroPkey else none }

def looseKey : BlindRsaPublicKey := ⟨some zeroPkey, [0x30, 0x00]⟩

def looseToken (type : TokenType) : Token :=
  ⟨type, .zero 32, ⟨List.replicate 32 1, rfl⟩, ⟨List.replicate 32 1, rfl⟩, List.replicate 256 0⟩

/-- The unified origin fails otherwise without keys and for tokens of other types, and it does not
know the key that was read with a byte behind it. -/
theorem Origin.verify_addBlindRsaKeys_differs :
    @Origin.verify looseBackend (@Origin.create looseBackend zeroConfig) (looseToken .blindRsa)
        zeroChallenge = .error ⟨.issuerUnknown, "No RSA keys configured"⟩ ∧
      @PublicOrigin.verify looseBackend.toRsaBackend
        (@PublicOrigin.create looseBackend.toRsaBackend zeroConfig []) (looseToken .blindRsa)
        zeroChallenge = .error ⟨.issuerUnknown, "Unknown issuer key"⟩ ∧
      @BlindRsaPublicKey.fromSpki looseBackend.toRsaBackend [0x30, 0x00] = .ok looseKey ∧
      @Origin.verify looseBackend (@Origin.addBlindRsaKey looseBackend
        (@Origin.create looseBackend zeroConfig) looseKey) (looseToken .voprfP384Sha384) zeroChallenge =
          .error ⟨.unsupportedTokenType, "VOPRF tokens require issuer private-key verification"⟩ ∧
      @PublicOrigin.verify looseBackend.toRsaBackend
        (@PublicOrigin.create looseBackend.toRsaBackend zeroConfig [looseKey])
        (looseToken .voprfP384Sha384) zeroChallenge =
          .error ⟨.tokenMalformed, "Invalid authenticator size"⟩ ∧
      @Origin.verify looseBackend (@Origin.addBlindRsaKey looseBackend
        (@Origin.create looseBackend zeroConfig) looseKey) (looseToken .blindRsa) zeroChallenge =
          .error ⟨.issuerUnknown, "Unknown issuer key"⟩ ∧
      @PublicOrigin.verify looseBackend.toRsaBackend
        (@PublicOrigin.create looseBackend.toRsaBackend zeroConfig [looseKey]) (looseToken .blindRsa)
        zeroChallenge = .ok true := by
  decide +kernel

end Instances

end PrivacyPass
