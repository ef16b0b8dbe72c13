import PrivacyPass.Proof.Issuer.MultiKey
import PrivacyPass.Proof.Origin.Incremental

/-
This file proves that the maps of an issuer with several keys agree in every run.
-/

namespace PrivacyPass

open Library Crypto

namespace KeyedIssuers

variable {ι : Type}

/-- The ids of the issuers are the ids that are listed under their own last byte, and none is listed
under another one. -/
structure Indexed (held : KeyedIssuers ι) : Prop where
  mem_iff : ∀ keyId, keyId ∈ held.issuers ↔ keyId ∈ held.listed (truncatedKeyId keyId)
  placed : ∀ keyId truncated, keyId ∈ held.listed truncated → truncatedKeyId keyId = truncated

/-- A live key with the truncated id answers at its place in the list. -/
def Answers (held : KeyedIssuers ι) (answer : Nat → ι → Result TokenResponse) (truncated : UInt8)
    (response : TokenResponse) : Prop :=
  ∃ index keyId issuer, (held.listed truncated)[index]? = some keyId ∧
    held.issuers.lookup keyId = some issuer ∧ truncatedKeyId keyId = truncated ∧
    answer index issuer = .ok response

variable {held : KeyedIssuers ι} {answer : Nat → ι → Result TokenResponse} {truncated : UInt8}

/-- The first answer of the tried keys is the answer of one of them. -/
theorem tryKeys_some {keyIds : List TokenKeyId} {response : TokenResponse}
    (found : held.tryKeys answer keyIds = some response) :
    ∃ index keyId issuer, keyIds[index]? = some keyId ∧ held.issuers.lookup keyId = some issuer ∧
      answer index issuer = .ok response := by
  obtain ⟨⟨keyId, index⟩, member, attempt⟩ := List.exists_of_findSome?_eq_some found
  dsimp only at attempt
  split at attempt
  · cases attempt
  · next issuer held =>
      exact ⟨index, keyId, issuer, List.mem_zipIdx_iff_getElem?.mp member, held,
        Result.toOption_eq_some.mp attempt⟩

/-- A key that answers at its place does not let all tries fail. -/
theorem tryKeys_ne_none {keyIds : List TokenKeyId} {index : Nat} {keyId : TokenKeyId} {issuer : ι}
    {response : TokenResponse} (here : keyIds[index]? = some keyId)
    (found : held.issuers.lookup keyId = some issuer) (answered : answer index issuer = .ok response) :
    held.tryKeys answer keyIds ≠ none := by
  intro failed
  have attempt := List.findSome?_eq_none_iff.mp failed (keyId, index)
    (List.mem_zipIdx_iff_getElem?.mpr here)
  simp only [found, answered] at attempt
  cases attempt

/-- A response comes from a live key with the truncated id, and there is a response when one of these
keys answers. -/
theorem Indexed.issue_answers (indexed : held.Indexed) (unknown unmatched : String) :
    (∀ response, held.issue answer truncated unknown unmatched = .ok response →
        held.Answers answer truncated response) ∧
      ((∃ response, held.issue answer truncated unknown unmatched = .ok response) ↔
        ∃ response, held.Answers answer truncated response) := by
  have comes (response : TokenResponse)
      (issued : held.issue answer truncated unknown unmatched = .ok response) :
      held.Answers answer truncated response := by
    obtain ⟨index, keyId, issuer, here, found, answered⟩ := tryKeys_some (issue_eq_ok.mp issued)
    exact ⟨index, keyId, issuer, here, found,
      indexed.placed keyId truncated (List.mem_of_getElem? here), answered⟩
  refine ⟨comes, fun ⟨response, issued⟩ => ⟨response, comes response issued⟩, ?_⟩
  intro ⟨response, index, keyId, issuer, here, found, _, answered⟩
  obtain ⟨first, tried⟩ := Option.ne_none_iff_exists'.mp (tryKeys_ne_none here found answered)
  exact ⟨first, issue_eq_ok.mpr tried⟩

/-- The listed keys of a walk are the keys that it meets, in the order of the walk. -/
theorem map_filterMap_entries {entries : List (Sigma fun _ : TokenKeyId => ι)}
    {list : ι → Option PublicKey} {kind : TokenType}
    (lists : ∀ entry ∈ entries, ∃ data, list entry.2 = some ⟨kind, data, entry.1⟩) :
    (entries.filterMap fun entry => list entry.2).map (fun key => (key.type, key.keyId)) =
      entries.map fun entry => (kind, entry.1) := by
  induction entries with
  | nil => rfl
  | cons entry entries ih =>
      obtain ⟨data, listed⟩ := lists entry List.mem_cons_self
      rw [List.filterMap_cons, listed, List.map_cons, List.map_cons,
        ih fun other member => lists other (List.mem_cons_of_mem _ member)]

end KeyedIssuers

namespace MultiKeyIssuer

section Registry

variable {ι : Type} {held : KeyedIssuers ι} {make : IssuerKey → Option ι}
  {keys : UInt8 → List (TokenKeyId × IssuerKey)}

/-- An issuer belongs to a current key under its own id. -/
theorem Represents.lookup_some (represents : Represents held make keys) {keyId : TokenKeyId}
    {issuer : ι} (found : held.issuers.lookup keyId = some issuer) :
    ∃ key, (keyId, key) ∈ keys (truncatedKeyId keyId) ∧ make key = some issuer := by
  rw [represents.stored] at found
  obtain ⟨key, stands, makes⟩ := Option.bind_eq_some_iff.mp found
  exact ⟨key, standing_mem stands, makes⟩

/-- The ids with an issuer are the ids of the current keys. -/
theorem Represents.mem_issuers_iff (represents : Represents held make keys)
    (made : ∀ truncated, ∀ entry ∈ keys truncated, ∃ issuer, make entry.2 = some issuer)
    (keyId : TokenKeyId) :
    keyId ∈ held.issuers ↔ ∃ key, (keyId, key) ∈ keys (truncatedKeyId keyId) := by
  rw [← AList.lookup_isSome, Option.isSome_iff_exists]
  constructor
  · rintro ⟨issuer, found⟩
    obtain ⟨key, member, -⟩ := represents.lookup_some found
    exact ⟨key, member⟩
  · rintro ⟨key, member⟩
    obtain ⟨last, stands⟩ := standing_of_mem member
    obtain ⟨issuer, makes⟩ := made _ _ (standing_mem stands)
    exact ⟨issuer, by rw [represents.stored, stands, Option.bind_some, makes]⟩

/-- The two maps of one kind agree. -/
theorem Represents.indexed (represents : Represents held make keys)
    (made : ∀ truncated, ∀ entry ∈ keys truncated, ∃ issuer, make entry.2 = some issuer) :
    held.Indexed := by
  constructor
  · intro keyId
    rw [represents.mem_issuers_iff made, KeyedIssuers.listed, represents.listed, List.mem_map]
    constructor
    · rintro ⟨key, member⟩
      exact ⟨(keyId, key), member, rfl⟩
    · rintro ⟨⟨keyId, key⟩, member, rfl⟩
      exact ⟨key, member⟩
  · intro keyId truncated member
    rw [KeyedIssuers.listed, represents.listed, List.mem_map] at member
    obtain ⟨entry, inside, rfl⟩ := member
    exact represents.placed truncated entry inside

/-- A removal leaves the issuers whose id ends otherwise. -/
theorem Represents.lookup_removeKey (represents : Represents held make keys) (removed : UInt8)
    (keyId : TokenKeyId) :
    (held.removeKey removed).issuers.lookup keyId =
      if truncatedKeyId keyId = removed then none else held.issuers.lookup keyId := by
  rw [(represents.removeKey removed).stored]
  split
  · next same => rw [same, Function.update_self, standing, List.reverse_nil]; rfl
  · next other => rw [Function.update_of_ne other, represents.stored]

end Registry

section Listing

variable [CryptoBackend]

/-- An RSA key with an id is listed under it, as its encoding can be written again. -/
theorem listPublicKey_create (conforms : MarshalConforms) {key : BlindRsaPrivateKey}
    {keyId : TokenKeyId} (named : (IssuerKey.blindRsa key).keyId = .ok keyId) :
    ∃ spki, listPublicKey (.create key) = some ⟨.blindRsa, spki, keyId⟩ := by
  obtain ⟨pub, published, identified⟩ := Result.bind_eq_ok.mp named
  have parsed : ∃ spki, BlindRsaPublicKey.fromSpki spki = .ok pub := by
    unfold BlindRsaPrivateKey.publicKey at published
    split at published
    · cases published
    · split at published
      · cases published
      · next spki marshalled => exact ⟨spki, published⟩
  obtain ⟨spki, parsed⟩ := parsed
  obtain ⟨-, pkey, parses, valid, rfl⟩ := fromSpki_eq_ok.mp parsed
  obtain ⟨encoded, marshalled, -, -⟩ := conforms spki pkey parses valid
  have written : (⟨some pkey, spki⟩ : BlindRsaPublicKey).toSpki = .ok encoded := by
    simp only [BlindRsaPublicKey.toSpki, marshalPublicKey, marshalled]
  refine ⟨encoded, ?_⟩
  unfold listPublicKey
  rw [publicIssuer_privateKey, published]
  simp only [written, identified]

/-- A VOPRF key with an id is listed under it. -/
theorem listPrivateKey_create {key : VoprfPrivateKey} {memory : TokenKeyId × UInt8}
    {keyId : TokenKeyId} (named : (IssuerKey.voprf key memory).keyId = .ok keyId) :
    ∃ bytes, listPrivateKey (.create key memory) = some ⟨.voprfP384Sha384, bytes, keyId⟩ := by
  obtain ⟨pub, published, identified⟩ := Result.bind_eq_ok.mp named
  obtain ⟨bytes, written, -⟩ := Result.bind_eq_ok.mp identified
  refine ⟨bytes, ?_⟩
  unfold listPrivateKey
  rw [show (PrivateIssuer.create key memory).privateKey = key from rfl, published]
  simp only [written, identified]

/-- A key of the request's kind with the truncated id of the request answers it. -/
def Answers (multi : MultiKeyIssuer) (draws : Nat → List Nat) (request : TokenRequest)
    (response : TokenResponse) : Prop :=
  (request.tokenType = .blindRsa ∨ request.tokenType = .partiallyBlindRsa) ∧
      multi.rsa.Answers (fun _ issuer => issuer.issue request) request.truncatedTokenKeyId response ∨
    request.tokenType = .voprfP384Sha384 ∧
      multi.voprf.Answers (fun index issuer => issuer.issue (draws index) request)
        request.truncatedTokenKeyId response

variable {history : List (Call × Result Unit)} {multi : MultiKeyIssuer}

/-- An issuer knows the id under which it is held. -/
theorem Registered.identifies (registered : Registered history multi) (keyId : TokenKeyId) :
    (∀ issuer, multi.rsa.issuers.lookup keyId = some issuer →
        issuer.privateKey.publicKey = .ok issuer.publicKey ∧ issuer.keyId = keyId ∧
          issuer.truncatedKeyId = truncatedKeyId keyId) ∧
      ∀ issuer, multi.voprf.issuers.lookup keyId = some issuer →
        issuer.keyId = keyId ∧ issuer.truncatedKeyId = truncatedKeyId keyId := by
  constructor
  · intro issuer found
    obtain ⟨key, member, makes⟩ := registered.rsa.lookup_some found
    have named := (currentKeys_entry member).2
    cases key <;> cases makes
    obtain ⟨pub, published, identified⟩ := Result.bind_eq_ok.mp named
    rw [publicIssuer_privateKey]
    unfold PublicIssuer.create
    simp only [published, identified, true_and]
  · intro issuer found
    obtain ⟨key, member, makes⟩ := registered.voprf.lookup_some found
    have named := (currentKeys_entry member).2
    cases key <;> cases makes
    simp only [PrivateIssuer.create, IssuerKey.keyId] at named ⊢
    simp only [named, true_and]

/-- The ids with an issuer are the ids of the keys that the calls have left. -/
theorem Registered.live (registered : Registered history multi) (keyId : TokenKeyId) :
    (keyId ∈ multi.rsa.issuers ↔
        ∃ key, (keyId, key) ∈ currentKeys .blindRsa (truncatedKeyId keyId) history) ∧
      (keyId ∈ multi.voprf.issuers ↔
        ∃ key, (keyId, key) ∈ currentKeys .voprfP384Sha384 (truncatedKeyId keyId) history) :=
  ⟨registered.rsa.mem_issuers_iff
      (fun _ _ member => publicIssuer_of_kind (currentKeys_kind member)) keyId,
    registered.voprf.mem_issuers_iff
      (fun _ _ member => privateIssuer_of_kind (currentKeys_kind member)) keyId⟩

theorem Registered.indexed (registered : Registered history multi) :
    multi.rsa.Indexed ∧ multi.voprf.Indexed :=
  ⟨registered.rsa.indexed fun _ _ member => publicIssuer_of_kind (currentKeys_kind member),
    registered.voprf.indexed fun _ _ member => privateIssuer_of_kind (currentKeys_kind member)⟩

/-- Each issuer of a walk is listed with its kind and its id. -/
theorem Registered.lists (registered : Registered history multi) (conforms : MarshalConforms) :
    (∀ keyId issuer, multi.rsa.issuers.lookup keyId = some issuer →
      ∃ data, listPublicKey issuer = some ⟨.blindRsa, data, keyId⟩) ∧
    ∀ keyId issuer, multi.voprf.issuers.lookup keyId = some issuer →
      ∃ data, listPrivateKey issuer = some ⟨.voprfP384Sha384, data, keyId⟩ := by
  constructor
  · intro keyId issuer found
    obtain ⟨key, member, makes⟩ := registered.rsa.lookup_some found
    have named := (currentKeys_entry member).2
    cases key <;> cases makes
    exact listPublicKey_create conforms named
  · intro keyId issuer found
    obtain ⟨key, member, makes⟩ := registered.voprf.lookup_some found
    have named := (currentKeys_entry member).2
    cases key <;> cases makes
    exact listPrivateKey_create named

/-- The public keys are the live keys of both kinds, each once. -/
theorem Registered.publicKeys (registered : Registered history multi) (conforms : MarshalConforms)
    (rsaWalk : multi.rsa.Walk) (voprfWalk : multi.voprf.Walk) :
    ((multi.publicKeys rsaWalk voprfWalk).map fun key => (key.type, key.keyId)).Perm
      (multi.rsa.issuers.keys.map (fun keyId => (TokenType.blindRsa, keyId)) ++
        multi.voprf.issuers.keys.map fun keyId => (.voprfP384Sha384, keyId)) := by
  obtain ⟨rsa, voprf⟩ := registered.lists conforms
  rw [MultiKeyIssuer.publicKeys, List.map_append,
    KeyedIssuers.map_filterMap_entries fun entry member =>
      rsa entry.1 entry.2 (AList.mem_lookup_iff.mpr (rsaWalk.permutes.mem_iff.mp member)),
    KeyedIssuers.map_filterMap_entries fun entry member =>
      voprf entry.1 entry.2 (AList.mem_lookup_iff.mpr (voprfWalk.permutes.mem_iff.mp member))]
  have rsaKeys := rsaWalk.permutes.map fun entry => (TokenType.blindRsa, entry.1)
  have voprfKeys := voprfWalk.permutes.map fun entry => (TokenType.voprfP384Sha384, entry.1)
  simp only [AList.keys, List.keys, List.map_map]
  exact rsaKeys.append voprfKeys

/-- A public key comes from the issuer under its id. -/
theorem Registered.publicKeys_source (registered : Registered history multi)
    (conforms : MarshalConforms) {rsaWalk : multi.rsa.Walk} {voprfWalk : multi.voprf.Walk}
    {key : PublicKey} (member : key ∈ multi.publicKeys rsaWalk voprfWalk) :
    (∃ issuer, multi.rsa.issuers.lookup key.keyId = some issuer ∧ listPublicKey issuer = some key) ∨
      ∃ issuer, multi.voprf.issuers.lookup key.keyId = some issuer ∧
        listPrivateKey issuer = some key := by
  obtain ⟨rsa, voprf⟩ := registered.lists conforms
  rcases List.mem_append.mp member with inside | inside
  · obtain ⟨⟨keyId, issuer⟩, entry, lists⟩ := List.mem_filterMap.mp inside
    have found := AList.mem_lookup_iff.mpr (rsaWalk.permutes.mem_iff.mp entry)
    obtain ⟨data, listed⟩ := rsa keyId issuer found
    obtain rfl := Option.some.inj (lists.symm.trans listed)
    exact .inl ⟨issuer, found, lists⟩
  · obtain ⟨⟨keyId, issuer⟩, entry, lists⟩ := List.mem_filterMap.mp inside
    have found := AList.mem_lookup_iff.mpr (voprfWalk.permutes.mem_iff.mp entry)
    obtain ⟨data, listed⟩ := voprf keyId issuer found
    obtain rfl := Option.some.inj (lists.symm.trans listed)
    exact .inr ⟨issuer, found, lists⟩

omit [CryptoBackend] in
/-- No key id occurs twice in one kind, and the kinds differ. -/
theorem liveKeys_nodup (multi : MultiKeyIssuer) :
    (multi.rsa.issuers.keys.map (fun keyId => (TokenType.blindRsa, keyId)) ++
      multi.voprf.issuers.keys.map fun keyId => (TokenType.voprfP384Sha384, keyId)).Nodup := by
  have once (kind : TokenType) {keyIds : List TokenKeyId} (nodup : keyIds.Nodup) :
      (keyIds.map fun keyId => (kind, keyId)).Nodup :=
    nodup.map fun _ _ same => (Prod.mk.inj same).2
  apply (once _ multi.rsa.issuers.keys_nodup).append (once _ multi.voprf.issuers.keys_nodup)
  intro entry left right
  obtain ⟨_, -, rfl⟩ := List.mem_map.mp left
  obtain ⟨_, -, same⟩ := List.mem_map.mp right
  exact kinds_differ (Prod.mk.inj same).1.symm

/-- The issuer answers with the answer of a live key, and it answers when a live key does. -/
theorem Registered.issue (registered : Registered history multi) (draws : Nat → List Nat)
    (request : TokenRequest) :
    (∀ response, multi.issue draws request = .ok response →
        multi.Answers draws request response) ∧
      ((∃ response, multi.issue draws request = .ok response) ↔
        ∃ response, multi.Answers draws request response) := by
  obtain ⟨rsa, voprf⟩ := registered.indexed
  have differ : TokenType.partiallyBlindRsa ≠ .voprfP384Sha384 := by decide
  unfold MultiKeyIssuer.issue Answers
  by_cases typed : request.tokenType = .blindRsa ∨ request.tokenType = .partiallyBlindRsa
  · have other : request.tokenType ≠ .voprfP384Sha384 := by
      rcases typed with typed | typed
      · exact fun same => kinds_differ (typed.symm.trans same)
      · exact fun same => differ (typed.symm.trans same)
    simp only [if_pos typed, and_iff_right typed, other, false_and, or_false]
    exact rsa.issue_answers _ _
  · simp only [typed, if_false, false_and, false_or]
    by_cases voprfTyped : request.tokenType = .voprfP384Sha384
    · simp only [if_pos voprfTyped, and_iff_right voprfTyped]
      exact voprf.issue_answers _ _
    · simp only [voprfTyped, if_false, false_and, exists_false, iff_false]
      constructor
      · intro response equal
        cases equal
      · intro ⟨response, equal⟩
        cases equal

end Listing

/-- After every run the ids with an issuer are the ids of the keys of each kind that the calls have
added and not removed, each with the issuer of the key added last under it, which knows this id, and
they are those listed under their own last byte. The public keys are the live keys of both kinds, each
once, a removal leaves the keys whose id ends otherwise, and a request is answered exactly when a live
key of its kind with its truncated id answers it, and with the answer of such a key. -/
theorem machine_bookkeeping [CryptoBackend] (conforms : MarshalConforms)
    {history : List (Call × Result Unit)} {multi : MultiKeyIssuer}
    (runs : machine.Runs (fun _ _ => True) {} history multi) :
    (∀ keyId,
        (keyId ∈ multi.rsa.issuers ↔
          ∃ key, (keyId, key) ∈ currentKeys .blindRsa (truncatedKeyId keyId) history) ∧
        (keyId ∈ multi.voprf.issuers ↔
          ∃ key, (keyId, key) ∈ currentKeys .voprfP384Sha384 (truncatedKeyId keyId) history) ∧
        multi.rsa.issuers.lookup keyId =
          (standing (currentKeys .blindRsa (truncatedKeyId keyId) history) keyId).bind publicIssuer ∧
        multi.voprf.issuers.lookup keyId =
          (standing (currentKeys .voprfP384Sha384 (truncatedKeyId keyId) history) keyId).bind
            privateIssuer ∧
        (∀ issuer, multi.rsa.issuers.lookup keyId = some issuer →
          issuer.privateKey.publicKey = .ok issuer.publicKey ∧ issuer.keyId = keyId ∧
            issuer.truncatedKeyId = truncatedKeyId keyId) ∧
        ∀ issuer, multi.voprf.issuers.lookup keyId = some issuer →
          issuer.keyId = keyId ∧ issuer.truncatedKeyId = truncatedKeyId keyId) ∧
      (multi.rsa.Indexed ∧ multi.voprf.Indexed) ∧
      (∀ (rsaWalk : multi.rsa.Walk) (voprfWalk : multi.voprf.Walk),
        ((multi.publicKeys rsaWalk voprfWalk).map fun key => (key.type, key.keyId)).Perm
            (multi.rsa.issuers.keys.map (fun keyId => (TokenType.blindRsa, keyId)) ++
              multi.voprf.issuers.keys.map fun keyId => (.voprfP384Sha384, keyId)) ∧
          ((multi.publicKeys rsaWalk voprfWalk).map fun key => (key.type, key.keyId)).Nodup ∧
          ∀ key ∈ multi.publicKeys rsaWalk voprfWalk,
            (∃ issuer, multi.rsa.issuers.lookup key.keyId = some issuer ∧
              listPublicKey issuer = some key) ∨
            ∃ issuer, multi.voprf.issuers.lookup key.keyId = some issuer ∧
              listPrivateKey issuer = some key) ∧
      (∀ removed keyId,
        (multi.removeKey removed).rsa.issuers.lookup keyId =
            (if truncatedKeyId keyId = removed then none else multi.rsa.issuers.lookup keyId) ∧
          (multi.removeKey removed).voprf.issuers.lookup keyId =
            if truncatedKeyId keyId = removed then none else multi.voprf.issuers.lookup keyId) ∧
      ∀ draws request,
        (∀ response, multi.issue draws request = .ok response →
          multi.Answers draws request response) ∧
        ((∃ response, multi.issue draws request = .ok response) ↔
          ∃ response, multi.Answers draws request response) := by
  have registered := registered_of_runs runs
  refine ⟨?_, registered.indexed, ?_, ?_, registered.issue⟩
  · intro keyId
    obtain ⟨rsa, voprf⟩ := registered.live keyId
    exact ⟨rsa, voprf, registered.rsa.stored keyId, registered.voprf.stored keyId,
      registered.identifies keyId⟩
  · intro rsaWalk voprfWalk
    have listed := registered.publicKeys conforms rsaWalk voprfWalk
    exact ⟨listed, listed.nodup_iff.mpr multi.liveKeys_nodup,
      fun key member => registered.publicKeys_source conforms member⟩
  · intro removed keyId
    exact ⟨registered.rsa.lookup_removeKey removed keyId,
      registered.voprf.lookup_removeKey removed keyId⟩

section Instances

/-- This library knows the digests of two RSA keys and of the generator of P-384, which is the public
key for the private key one. -/
abbrev ledgerBackend : CryptoBackend :=
  { recordedBackend with
    evpSha256 := fun data => some (totalHash 32
      ((0x1c367cd5dee2cd3b, 0x617e8efc7b1c96fc22a3f85de7b8be4a8f6fed953738329db394d008530e6f7b) ::
        sharedSha256) data)
    parsePublicKeySpki := parsePssSpki
    marshalPublicKey := fun pkey => some (pssSpki pkey.n) }

/-- The private key is one. -/
def ledgerKey : IssuerKey := .voprf ⟨some 1⟩ (.zero 32, 0)

def ledgerKeyId : TokenKeyId := ⟨BigEndian.toBytes 32
  0x617e8efc7b1c96fc22a3f85de7b8be4a8f6fed953738329db394d008530e6f7b, BigEndian.toBytes_length 32 _⟩

/-- The first RSA key goes before the second one comes, and the VOPRF key comes twice. -/
def ledgerCalls (first second : IssuerKey) (removed : UInt8) : List (Call × Result Unit) :=
  [(.addKey first, .ok ()), (.addKey ledgerKey, .ok ()), (.removeKey removed, .ok ()),
    (.addKey second, .ok ()), (.addKey ledgerKey, .ok ())]

theorem ledgerKey_keyId : @IssuerKey.keyId ledgerBackend ledgerKey = .ok ledgerKeyId := by
  decide +kernel

theorem ledger_sharedKey_keyId :
    @IssuerKey.keyId ledgerBackend (sharedKey recordedModulus recordedExponent) =
        .ok (sharedKeyId recordedModulus) ∧
      @IssuerKey.keyId ledgerBackend (sharedKey rivalModulus rivalExponent) =
        .ok (sharedKeyId rivalModulus) := by
  decide +kernel

theorem ledger_ids :
    truncatedKeyId (sharedKeyId recordedModulus) ≠ truncatedKeyId ledgerKeyId := by
  decide +kernel

/-- An added RSA key is filed under its id. -/
theorem step_addBlindRsaKey [CryptoBackend] {key : BlindRsaPrivateKey} {keyId : TokenKeyId}
    (named : (IssuerKey.blindRsa key).keyId = .ok keyId) (multi : MultiKeyIssuer) :
    machine.step multi (.addKey (.blindRsa key)) = (.ok (),
      ⟨multi.rsa.add keyId (truncatedKeyId keyId) (.create key), multi.voprf⟩) :=
  addBlindRsaKey_of_ok multi named

theorem step_addVoprfKey [CryptoBackend] {key : VoprfPrivateKey} {memory : TokenKeyId × UInt8}
    {keyId : TokenKeyId} (named : (IssuerKey.voprf key memory).keyId = .ok keyId)
    (multi : MultiKeyIssuer) :
    machine.step multi (.addKey (.voprf key memory)) = (.ok (),
      ⟨multi.rsa, multi.voprf.add keyId (truncatedKeyId keyId) (.create key memory)⟩) :=
  addVoprfKey_of_ok multi named

/-- The only key of a truncated id leaves nothing behind. -/
theorem removeKey_add_empty {ι : Type} (keyId : TokenKeyId) (truncated : UInt8) (issuer : ι) :
    (KeyedIssuers.add {} keyId truncated issuer).removeKey truncated = {} := by
  have single {α β : Type} [DecidableEq α] (key : α) (value : β) :
      ((∅ : AList fun _ : α => β).insert key value).erase key = ∅ := by
    apply AList.ext
    exact List.kerase_cons_eq rfl
  have listed : (KeyedIssuers.add {} keyId truncated issuer).keysByTruncatedId.lookup truncated =
      some [keyId] := AList.lookup_insert _
  unfold KeyedIssuers.removeKey
  rw [listed]
  exact congrArg₂ KeyedIssuers.mk (single keyId issuer) (single truncated [keyId])

/-- A removal of another truncated id changes nothing. -/
theorem removeKey_add_other {ι : Type} (keyId : TokenKeyId) {truncated removed : UInt8} (issuer : ι)
    (other : removed ≠ truncated) :
    (KeyedIssuers.add {} keyId truncated issuer).removeKey removed =
      KeyedIssuers.add {} keyId truncated issuer := by
  have unlisted : (KeyedIssuers.add {} keyId truncated issuer).keysByTruncatedId.lookup removed =
      none := AList.lookup_insert_ne other
  unfold KeyedIssuers.removeKey
  rw [unlisted]

/-- A repeated key is listed twice. -/
theorem add_twice {ι : Type} (keyId : TokenKeyId) (truncated : UInt8) (issuer other : ι) :
    ((KeyedIssuers.add {} keyId truncated issuer).add keyId truncated other).issuers.keys = [keyId] ∧
      ((KeyedIssuers.add {} keyId truncated issuer).add keyId truncated other).listed truncated =
        [keyId, keyId] := by
  constructor
  · simp [KeyedIssuers.add]
  · simp only [KeyedIssuers.listed, KeyedIssuers.add, AList.lookup_insert]
    rfl

/-- These calls succeed, and two keys are live after them. -/
theorem ledgerCalls_runs {first second : BlindRsaPrivateKey} {firstId secondId : TokenKeyId}
    (firstNamed : @IssuerKey.keyId ledgerBackend (.blindRsa first) = .ok firstId)
    (secondNamed : @IssuerKey.keyId ledgerBackend (.blindRsa second) = .ok secondId)
    (apart : truncatedKeyId firstId ≠ truncatedKeyId ledgerKeyId) :
    ∃ multi, (@machine ledgerBackend).Runs (fun _ _ => True) {}
        (ledgerCalls (.blindRsa first) (.blindRsa second) (truncatedKeyId firstId)) multi ∧
      multi.rsa.issuers.keys = [secondId] ∧ multi.voprf.issuers.keys = [ledgerKeyId] ∧
      multi.voprf.listed (truncatedKeyId ledgerKeyId) = [ledgerKeyId, ledgerKeyId] := by
  let issuer := @PrivateIssuer.create ledgerBackend.toEcBackend ⟨some 1⟩ (.zero 32, 0)
  let held : KeyedIssuers PrivateIssuer :=
    KeyedIssuers.add {} ledgerKeyId (truncatedKeyId ledgerKeyId) issuer
  have empty : (@machine ledgerBackend).Runs (fun _ _ => True) {} [] {} := .start
  have one := empty.next trivial (@step_addBlindRsaKey ledgerBackend _ _ firstNamed _)
  have two := one.next trivial (@step_addVoprfKey ledgerBackend _ _ _ ledgerKey_keyId _)
  have removed : (@machine ledgerBackend).step ⟨KeyedIssuers.add {} firstId (truncatedKeyId firstId)
      (@PublicIssuer.create ledgerBackend.toRsaBackend first), held⟩
        (.removeKey (truncatedKeyId firstId)) = (.ok (), ⟨{}, held⟩) :=
    congrArg (Prod.mk _) (congrArg₂ MultiKeyIssuer.mk (removeKey_add_empty firstId _ _)
      (removeKey_add_other ledgerKeyId issuer apart))
  have three := two.next trivial removed
  have four := three.next trivial (@step_addBlindRsaKey ledgerBackend _ _ secondNamed _)
  have five := four.next trivial (@step_addVoprfKey ledgerBackend _ _ _ ledgerKey_keyId _)
  exact ⟨_, five, rfl, add_twice ledgerKeyId _ issuer issuer⟩

/-- The calls leave the second RSA key and the VOPRF key. -/
theorem ledgerCalls_currentKeys {first second : IssuerKey} {firstId secondId : TokenKeyId}
    (firstNamed : @IssuerKey.keyId ledgerBackend first = .ok firstId)
    (secondNamed : @IssuerKey.keyId ledgerBackend second = .ok secondId)
    (kinds : first.kind = .blindRsa ∧ second.kind = .blindRsa)
    (shared : truncatedKeyId firstId = truncatedKeyId secondId)
    (apart : truncatedKeyId firstId ≠ truncatedKeyId ledgerKeyId) :
    @currentKeys ledgerBackend .blindRsa (truncatedKeyId firstId)
        (ledgerCalls first second (truncatedKeyId firstId)) = [(secondId, second)] ∧
      @currentKeys ledgerBackend .voprfP384Sha384 (truncatedKeyId ledgerKeyId)
        (ledgerCalls first second (truncatedKeyId firstId)) =
          [(ledgerKeyId, ledgerKey), (ledgerKeyId, ledgerKey)] := by
  have voprf : ledgerKey.kind = .voprfP384Sha384 := rfl
  have differ := kinds_differ
  constructor
  · simp [ledgerCalls, currentKeys, nextKeys, firstNamed, secondNamed, ledgerKey_keyId, kinds, voprf,
      shared, differ.symm]
  · simp [ledgerCalls, currentKeys, nextKeys, firstNamed, secondNamed, ledgerKey_keyId, kinds, voprf,
      apart, differ]

/-- A key that was added twice is listed twice and is one public key, and the key that was removed is
none. -/
theorem machine_bookkeeping_repeated :
    ∃ multi, (@machine ledgerBackend).Runs (fun _ _ => True) {}
        (ledgerCalls (sharedKey recordedModulus recordedExponent) (sharedKey rivalModulus rivalExponent)
          (truncatedKeyId (sharedKeyId recordedModulus))) multi ∧
      sharedKeyId recordedModulus ∉ multi.rsa.issuers ∧ sharedKeyId rivalModulus ∈ multi.rsa.issuers ∧
      ledgerKeyId ∈ multi.voprf.issuers ∧ multi.voprf.Indexed ∧
      multi.voprf.listed (truncatedKeyId ledgerKeyId) = [ledgerKeyId, ledgerKeyId] ∧
      ∀ (rsaWalk : multi.rsa.Walk) (voprfWalk : multi.voprf.Walk),
        ((@publicKeys ledgerBackend multi rsaWalk voprfWalk).map fun key => (key.type, key.keyId)).Perm
          [(.blindRsa, sharedKeyId rivalModulus), (.voprfP384Sha384, ledgerKeyId)] := by
  obtain ⟨named, rivalNamed⟩ := ledger_sharedKey_keyId
  obtain ⟨multi, runs, rsaKeys, voprfKeys, twice⟩ : ∃ multi,
      (@machine ledgerBackend).Runs (fun _ _ => True) {} (ledgerCalls
        (sharedKey recordedModulus recordedExponent) (sharedKey rivalModulus rivalExponent)
        (truncatedKeyId (sharedKeyId recordedModulus))) multi ∧ _ :=
    ledgerCalls_runs named rivalNamed ledger_ids
  obtain ⟨live, ⟨-, indexed⟩, listing, -, -⟩ := @machine_bookkeeping ledgerBackend
    (marshalConforms_of_pss ledgerBackend rfl rfl) _ _ runs
  obtain ⟨different, shared, -⟩ := recordedModulus_rival
  have kinds := And.intro (sharedKey_kind recordedModulus recordedExponent)
    (sharedKey_kind rivalModulus rivalExponent)
  obtain ⟨rsaCurrent, voprfCurrent⟩ :=
    ledgerCalls_currentKeys named rivalNamed kinds shared ledger_ids
  refine ⟨multi, runs, ?_, ?_, ?_, indexed, twice, ?_⟩
  · rw [(live _).1, rsaCurrent]
    rintro ⟨key, member⟩
    exact different (Prod.mk.inj (List.mem_singleton.mp member)).1
  · rw [(live _).1, ← shared, rsaCurrent]
    exact ⟨_, List.mem_cons_self⟩
  · rw [(live _).2.1, voprfCurrent]
    exact ⟨_, List.mem_cons_self⟩
  · intro rsaWalk voprfWalk
    have listed := (listing rsaWalk voprfWalk).1
    rw [rsaKeys, voprfKeys] at listed
    exact listed

end Instances

end MultiKeyIssuer
end PrivacyPass
