import PrivacyPass.Construction.TokenAuthenticator
import PrivacyPass.Proof.Issuer.MultiKey

/-
This file proves when a validated token names a key of a trusted issuer, over runs that add and
remove issuers.
-/

namespace PrivacyPass

open Library Crypto

/-- A fresh public origin holds no key. -/
theorem PublicOrigin.not_holdsKey_createEmpty (config : OriginConfig) (id : TokenKeyId)
    (key : BlindRsaPublicKey) : ¬ (createEmpty config).HoldsKey id key := by
  intro ⟨index, found, _⟩
  cases found

section Origin

variable [CryptoBackend]

/-- The origin verifies with some key for this key id. -/
def Origin.Holds (origin : Origin) (id : TokenKeyId) : Prop :=
  ∃ publicOrigin key, origin.publicOrigin = some publicOrigin ∧ publicOrigin.HoldsKey id key

/-- The origin verifies with this key for this key id. -/
def Origin.HoldsKey (origin : Origin) (id : TokenKeyId) (key : BlindRsaPublicKey) : Prop :=
  ∃ publicOrigin, origin.publicOrigin = some publicOrigin ∧ publicOrigin.HoldsKey id key

/-- An origin gains at most the key that was added to it. -/
theorem PublicOrigin.holdsKey_of_addIssuerKey {origin : PublicOrigin} {key held : BlindRsaPublicKey}
    {id : TokenKeyId} (holds : (origin.addIssuerKey key).HoldsKey id held) :
    (held = key ∧ key.keyId = .ok id) ∨ origin.HoldsKey id held := by
  cases named : key.keyId with
  | error error =>
      rw [addIssuerKey_of_error named] at holds
      exact .inr holds
  | ok keyId =>
      rw [holdsKey_addIssuerKey named] at holds
      split at holds
      · next same => exact .inl ⟨holds, by rw [same]⟩
      · exact .inr holds

/-- The unified origin gains at most the copy of the added key. -/
theorem Origin.holdsKey_of_addBlindRsaKey {origin : Origin} {key held : BlindRsaPublicKey}
    {id : TokenKeyId} (holds : (origin.addBlindRsaKey key).HoldsKey id held) :
    (copyRsaKey key = .ok held ∧ held.keyId = .ok id) ∨ origin.HoldsKey id held := by
  obtain ⟨publicOrigin, found, holdsKey⟩ := holds
  unfold addBlindRsaKey at found
  dsimp only at found
  split at found
  · exact .inr ⟨publicOrigin, found, holdsKey⟩
  · next copy copied =>
      split at found
      · cases found
        rcases PublicOrigin.holdsKey_of_addIssuerKey holdsKey with ⟨rfl, named⟩ | holdsKey
        · exact .inl ⟨copied, named⟩
        · exact absurd holdsKey (PublicOrigin.not_holdsKey_createEmpty _ _ _)
      · next before existing =>
          cases found
          rcases PublicOrigin.holdsKey_of_addIssuerKey holdsKey with ⟨rfl, named⟩ | holdsKey
          · exact .inl ⟨copied, named⟩
          · exact .inr ⟨before, existing, holdsKey⟩

/-- The unified origin gains at most the id of the copy of the added key. -/
theorem Origin.holds_of_addBlindRsaKey {origin : Origin} {key : BlindRsaPublicKey} {id : TokenKeyId}
    (holds : (origin.addBlindRsaKey key).Holds id) :
    (∃ copy, copyRsaKey key = .ok copy ∧ copy.keyId = .ok id) ∨ origin.Holds id := by
  obtain ⟨publicOrigin, held, found, holdsKey⟩ := holds
  rcases holdsKey_of_addBlindRsaKey ⟨publicOrigin, found, holdsKey⟩ with ⟨copied, named⟩ | before
  · exact .inl ⟨held, copied, named⟩
  · obtain ⟨earlier, existing, holdsKey⟩ := before
    exact .inr ⟨earlier, held, existing, holdsKey⟩

/-- The first key that copies creates the public origin. -/
theorem Origin.addBlindRsaKey_first {origin : Origin} {key copy : BlindRsaPublicKey}
    (first : origin.publicOrigin = none) (copied : copyRsaKey key = .ok copy) :
    (origin.addBlindRsaKey key).publicOrigin = some (.create origin.config [copy]) := by
  unfold addBlindRsaKey
  simp only [copied, first]

/-- An origin that accepts a token holds the key that the token names, and this key answers. -/
theorem Origin.holdsKey_of_verify {origin : Origin} {token : Token} {challenge : TokenChallenge}
    {answer : Bool} (verified : origin.verify token challenge = .ok answer) :
    ∃ key, origin.HoldsKey token.tokenKeyId key ∧
      key.verify (ByteWriter.build token.authenticatorInput.calls) token.authenticator = .ok answer := by
  unfold verify at verified
  split at verified
  · split at verified
    · next publicOrigin found =>
        obtain ⟨-, -, -, key, holds, answered⟩ := PublicOrigin.verify_eq_ok.mp verified
        exact ⟨key, ⟨publicOrigin, found, holds⟩, answered⟩
    · cases verified
  · split at verified <;> cases verified

theorem Origin.holds_of_verify {origin : Origin} {token : Token} {challenge : TokenChallenge}
    {answer : Bool} (verified : origin.verify token challenge = .ok answer) :
    origin.Holds token.tokenKeyId := by
  obtain ⟨key, ⟨publicOrigin, found, holds⟩, -⟩ := holdsKey_of_verify verified
  exact ⟨publicOrigin, key, found, holds⟩

end Origin

namespace TokenAuthenticator

section Checks

variable [CryptoBackend]

/-- A validation that succeeds has verified the signature. -/
theorem verify_of_check {authenticator : TokenAuthenticator} {token : Token}
    {challenge : TokenChallenge} (valid : (authenticator.check token challenge).valid = true) :
    authenticator.origin.verify token challenge = .ok true := by
  unfold check at valid
  split at valid
  · cases valid
  split at valid
  · cases valid
  split at valid
  · cases valid
  split at valid
  · cases valid
  · cases valid
  · next verified => exact verified

/-- A redemption that succeeds has passed the checks. -/
theorem check_of_validateAndRedeem {authenticator : TokenAuthenticator} {now : Nat} {token : Token}
    {challenge : TokenChallenge}
    (valid : (authenticator.validateAndRedeem now token challenge).1.valid = true) :
    (authenticator.check token challenge).valid = true := by
  unfold validateAndRedeem at valid
  dsimp only at valid
  split at valid
  · cases valid
  split at valid
  · exact valid
  split at valid
  · cases valid
  · exact valid

theorem addTrustedKey_origin {authenticator : TokenAuthenticator} {issuer : Bytes}
    {key copy : BlindRsaPublicKey} (copied : Origin.copyRsaKey key = .ok copy) :
    (authenticator.addTrustedKey issuer key).origin = authenticator.origin.addBlindRsaKey copy := by
  unfold addTrustedKey
  simp only [copied]

/-- A validation succeeds when the token has the expected form and the origin accepts it. -/
theorem check_of_verify {authenticator : TokenAuthenticator} {token : Token}
    {challenge : TokenChallenge} {publicOrigin : PublicOrigin}
    (found : authenticator.origin.publicOrigin = some publicOrigin)
    (verified : publicOrigin.verify token challenge = .ok true) :
    authenticator.check token challenge = .success token.challengeDigest := by
  obtain ⟨structured, typed, digested, -⟩ := PublicOrigin.verify_eq_ok.mp verified
  have accepted : authenticator.origin.verify token challenge = .ok true := by
    rw [Origin.verify, if_pos typed, found]
    exact verified
  unfold check
  simp only [structured, digested, (constantTimeEqual_iff _ _).mpr, accepted, Bool.true_eq_false,
    if_false]

/-- The first trusted key answers for its tokens, also after its issuer was removed. -/
theorem check_of_first {authenticator : TokenAuthenticator} {key : BlindRsaPublicKey}
    {token : Token} {challenge : TokenChallenge} (issuer : Bytes)
    (first : authenticator.origin.publicOrigin = none) (copied : Origin.copyRsaKey key = .ok key)
    (verified : (PublicOrigin.create authenticator.origin.config [key]).verify token challenge =
      .ok true) :
    (authenticator.addTrustedKey issuer key).check token challenge =
      .success token.challengeDigest := by
  refine check_of_verify ?_ verified
  rw [addTrustedKey_origin copied, Origin.addBlindRsaKey_first first copied]

theorem validate_eq_check (authenticator : TokenAuthenticator) (token : Token)
    (challenge : TokenChallenge) :
    authenticator.validate token challenge = authenticator.check token challenge := rfl

/-- The removal of an issuer changes no check. -/
theorem validate_removeTrustedIssuer (authenticator : TokenAuthenticator) (issuer : Bytes)
    (token : Token) (challenge : TokenChallenge) :
    (authenticator.removeTrustedIssuer issuer).validate token challenge =
      authenticator.check token challenge := rfl

/-- Once the only trusted issuer is removed, no issuer is trusted. -/
theorem isTrusted_removed (config : TokenAuthenticatorConfig) (issuer other : Bytes)
    (key : BlindRsaPublicKey) :
    (((create config).addTrustedKey issuer key).removeTrustedIssuer issuer).isTrusted other =
      false := by
  have rsa : ((((∅ : AList fun _ : Bytes => List BlindRsaPublicKey).insert issuer
      (((∅ : AList fun _ : Bytes => List BlindRsaPublicKey).lookup issuer).getD [] ++ [key])).erase
        issuer).lookup other) = none := by
    by_cases same : other = issuer
    · rw [same, AList.lookup_erase]
    · rw [AList.lookup_erase_ne same, AList.lookup_insert_ne same, AList.lookup_empty]
  have voprf : (((∅ : AList fun _ : Bytes => List VoprfPublicKey).erase issuer).lookup other) =
      none := by
    by_cases same : other = issuer
    · rw [same, AList.lookup_erase]
    · rw [AList.lookup_erase_ne same, AList.lookup_empty]
  simp only [isTrusted, removeTrustedIssuer, addTrustedKey, create, rsa, voprf, Option.isSome_none,
    Bool.or_self]

end Checks

section Registration

variable [CryptoBackend] {history : List ((Nat × Call) × Answer)} {authenticator : TokenAuthenticator}

/-- The key was added under the issuer, and the issuer was not removed since. -/
def Registered (history : List ((Nat × Call) × Answer)) (issuer : Bytes) (key : BlindRsaPublicKey) :
    Prop :=
  ∃ before after time, history = before ++ ((time, .addTrustedKey issuer key), .done) :: after ∧
    ∀ event ∈ after, event.1.2 ≠ .removeTrustedIssuer issuer

/-- Each event adds its key, or keeps the keys of every issuer that it does not remove. -/
theorem registered_snoc {event : (Nat × Call) × Answer} {issuer : Bytes} {key : BlindRsaPublicKey} :
    Registered (history ++ [event]) issuer key ↔
      (event.1.2 = .addTrustedKey issuer key ∧ event.2 = .done) ∨
        (Registered history issuer key ∧ event.1.2 ≠ .removeTrustedIssuer issuer) := by
  constructor
  · intro ⟨before, after, time, equal, kept⟩
    rcases List.eq_nil_or_concat after with rfl | ⟨front, last, rfl⟩
    · obtain ⟨-, same⟩ := List.append_inj' equal rfl
      cases same
      exact .inl ⟨rfl, rfl⟩
    · rw [List.concat_eq_append, ← List.cons_append, ← List.append_assoc] at equal
      obtain ⟨rfl, same⟩ := List.append_inj' equal rfl
      cases same
      refine .inr ⟨⟨before, front, time, rfl, fun other member => ?_⟩, ?_⟩
      · exact kept other (by simp [member])
      · exact kept event (by simp)
  · rintro (⟨call, answer⟩ | ⟨⟨before, after, time, rfl, kept⟩, other⟩)
    · rcases event with ⟨⟨time, call'⟩, answer'⟩
      cases call
      cases answer
      exact ⟨history, [], time, rfl, by simp⟩
    · refine ⟨before, after ++ [event], time, by simp, fun past member => ?_⟩
      rcases List.mem_append.mp member with inside | last
      · exact kept past inside
      · rw [List.mem_singleton.mp last]
        exact other

/-- The origin may verify with this key id once a key with it was added and copied. -/
def Usable (history : List ((Nat × Call) × Answer)) (id : TokenKeyId) : Prop :=
  ∃ time issuer key answer copy again, ((time, .addTrustedKey issuer key), answer) ∈ history ∧
    Origin.copyRsaKey key = .ok copy ∧ Origin.copyRsaKey copy = .ok again ∧ key.keyId = .ok id

theorem Usable.append {id : TokenKeyId} (usable : Usable history id)
    (event : (Nat × Call) × Answer) : Usable (history ++ [event]) id := by
  obtain ⟨time, issuer, key, answer, copy, again, member, copied, recopied, named⟩ := usable
  exact ⟨time, issuer, key, answer, copy, again, List.mem_append_left _ member, copied, recopied,
    named⟩

/-- The copies of a key through its encoding keep its id. -/
def CopiesKeepId (key : BlindRsaPublicKey) : Prop :=
  ∀ copy, Origin.copyRsaKey key = .ok copy → copy.keyId = key.keyId ∧
    ∀ again, Origin.copyRsaKey copy = .ok again → again.keyId = key.keyId

/-- A removal is safe when each usable key id of the issuer is registered under another issuer. -/
def SafeRemoval (history : List ((Nat × Call) × Answer)) (issuer : Bytes) : Prop :=
  ∀ key id, Registered history issuer key → key.keyId = .ok id → Usable history id →
    ∃ other held, other ≠ issuer ∧ Registered history other held ∧ held.keyId = .ok id

/-- Every added key keeps its id when it is copied. -/
def copiesAllowed (_history : List ((Nat × Call) × Answer)) (input : Nat × Call) : Prop :=
  match input.2 with
  | .addTrustedKey _ key => CopiesKeepId key
  | _ => True

/-- Every added key keeps its id, and every removal is safe. -/
def safeAllowed (history : List ((Nat × Call) × Answer)) (input : Nat × Call) : Prop :=
  match input.2 with
  | .addTrustedKey _ key => CopiesKeepId key
  | .removeTrustedIssuer issuer => SafeRemoval history issuer
  | _ => True

/-- The issuer map lists the registered keys, the origin holds usable ids only, and each usable id is
registered. -/
structure Consistent (history : List ((Nat × Call) × Answer)) (authenticator : TokenAuthenticator) :
    Prop where
  listed : ∀ issuer key, key ∈ (authenticator.rsaKeys.lookup issuer).getD [] ↔
    Registered history issuer key
  usable : ∀ id, authenticator.origin.Holds id → Usable history id
  registered : ∀ id, Usable history id →
    ∃ issuer key, Registered history issuer key ∧ key.keyId = .ok id

/-- A call that touches no Blind RSA key keeps the consistency. -/
theorem Consistent.frame {moved : TokenAuthenticator} {event : (Nat × Call) × Answer}
    (consistent : Consistent history authenticator) (keys : moved.rsaKeys = authenticator.rsaKeys)
    (origin : moved.origin.publicOrigin = authenticator.origin.publicOrigin)
    (notAdd : ∀ issuer key, event.1.2 ≠ .addTrustedKey issuer key)
    (notRemove : ∀ issuer, event.1.2 ≠ .removeTrustedIssuer issuer) :
    Consistent (history ++ [event]) moved := by
  have same (issuer : Bytes) (key : BlindRsaPublicKey) :
      Registered (history ++ [event]) issuer key ↔ Registered history issuer key := by
    rw [registered_snoc]
    simp [notAdd, notRemove]
  refine ⟨?_, ?_, ?_⟩
  · intro issuer key
    rw [keys, same]
    exact consistent.listed issuer key
  · intro id ⟨publicOrigin, key, found, holds⟩
    rw [origin] at found
    exact (consistent.usable id ⟨publicOrigin, key, found, holds⟩).append event
  · intro id ⟨time, issuer, key, answer, copy, again, member, copied, recopied, named⟩
    have inside : ((time, Call.addTrustedKey issuer key), answer) ∈ history := by
      rcases List.mem_append.mp member with inside | last
      · exact inside
      · rw [List.mem_singleton] at last
        exact absurd (congrArg (fun event => event.1.2) last).symm (notAdd issuer key)
    obtain ⟨other, held, registered, heldNamed⟩ := consistent.registered id
      ⟨time, issuer, key, answer, copy, again, inside, copied, recopied, named⟩
    exact ⟨other, held, (same other held).mpr registered, heldNamed⟩

/-- A new key adds no other id to the origin than that of its second copy. -/
theorem holds_of_addTrustedKey {issuer : Bytes} {key : BlindRsaPublicKey} {id : TokenKeyId}
    (holds : (authenticator.addTrustedKey issuer key).origin.Holds id) :
    (∃ copy again, Origin.copyRsaKey key = .ok copy ∧ Origin.copyRsaKey copy = .ok again ∧
      again.keyId = .ok id) ∨ authenticator.origin.Holds id := by
  unfold TokenAuthenticator.addTrustedKey at holds
  dsimp only at holds
  split at holds
  · next copy copied =>
      rcases Origin.holds_of_addBlindRsaKey holds with ⟨again, recopied, named⟩ | holds
      · exact .inl ⟨copy, again, copied, recopied, named⟩
      · exact .inr holds
  · exact .inr holds

/-- An added key is listed under its issuer, and the origin gains at most its id. -/
theorem Consistent.addTrustedKey (consistent : Consistent history authenticator) {time : Nat}
    {issuer : Bytes} {key : BlindRsaPublicKey} (copies : CopiesKeepId key) :
    Consistent (history ++ [((time, .addTrustedKey issuer key), .done)])
      (authenticator.addTrustedKey issuer key) := by
  have step (other : Bytes) (held : BlindRsaPublicKey) :
      Registered (history ++ [((time, .addTrustedKey issuer key), .done)]) other held ↔
        (issuer = other ∧ key = held) ∨ Registered history other held := by
    rw [registered_snoc]
    simp
  refine ⟨?_, ?_, ?_⟩
  · intro other held
    rw [step]
    change held ∈ ((authenticator.rsaKeys.insert issuer _).lookup other).getD [] ↔ _
    by_cases same : other = issuer
    · subst same
      rw [AList.lookup_insert, Option.getD_some, List.mem_append, List.mem_singleton,
        consistent.listed]
      tauto
    · rw [AList.lookup_insert_ne same, consistent.listed]
      constructor
      · exact .inr
      · rintro (⟨equal, -⟩ | registered)
        · exact absurd equal.symm same
        · exact registered
  · intro id holds
    rcases holds_of_addTrustedKey holds with ⟨copy, again, copied, recopied, named⟩ | holds
    · rw [(copies copy copied).2 again recopied] at named
      exact ⟨time, issuer, key, .done, copy, again,
        List.mem_append_right _ (List.mem_singleton.mpr rfl), copied, recopied, named⟩
    · exact (consistent.usable id holds).append _
  · intro id ⟨past, other, held, answer, copy, again, member, copied, recopied, named⟩
    rcases List.mem_append.mp member with inside | last
    · obtain ⟨found, foundKey, registered, foundNamed⟩ := consistent.registered id
        ⟨past, other, held, answer, copy, again, inside, copied, recopied, named⟩
      exact ⟨found, foundKey, (step found foundKey).mpr (.inr registered), foundNamed⟩
    · cases List.mem_singleton.mp last
      exact ⟨issuer, key, (step issuer key).mpr (.inl ⟨rfl, rfl⟩), named⟩

/-- A safe removal leaves each usable id registered. -/
theorem Consistent.removeTrustedIssuer (consistent : Consistent history authenticator) {time : Nat}
    {issuer : Bytes} (safe : SafeRemoval history issuer) :
    Consistent (history ++ [((time, .removeTrustedIssuer issuer), .done)])
      (authenticator.removeTrustedIssuer issuer) := by
  have step (other : Bytes) (held : BlindRsaPublicKey) :
      Registered (history ++ [((time, .removeTrustedIssuer issuer), .done)]) other held ↔
        Registered history other held ∧ issuer ≠ other := by
    rw [registered_snoc]
    simp
  refine ⟨?_, ?_, ?_⟩
  · intro other held
    rw [step]
    change held ∈ ((authenticator.rsaKeys.erase issuer).lookup other).getD [] ↔ _
    by_cases same : other = issuer
    · subst same
      rw [AList.lookup_erase]
      simp
    · rw [AList.lookup_erase_ne same, consistent.listed]
      simp [Ne.symm same]
  · intro id holds
    exact (consistent.usable id holds).append _
  · intro id ⟨past, other, held, answer, copy, again, member, copied, recopied, named⟩
    have inside : ((past, Call.addTrustedKey other held), answer) ∈ history := by
      rcases List.mem_append.mp member with inside | last
      · exact inside
      · cases List.mem_singleton.mp last
    have usable : Usable history id :=
      ⟨past, other, held, answer, copy, again, inside, copied, recopied, named⟩
    obtain ⟨found, foundKey, registered, foundNamed⟩ := consistent.registered id usable
    by_cases same : found = issuer
    · subst same
      obtain ⟨another, anotherKey, different, kept, keptNamed⟩ :=
        safe foundKey id registered foundNamed usable
      exact ⟨another, anotherKey, (step another anotherKey).mpr ⟨kept, different.symm⟩, keptNamed⟩
    · exact ⟨found, foundKey, (step found foundKey).mpr ⟨registered, Ne.symm same⟩, foundNamed⟩

theorem addTrustedVoprfKey_publicOrigin (authenticator : TokenAuthenticator) (issuer : Bytes)
    (key : VoprfPublicKey) :
    (authenticator.addTrustedVoprfKey issuer key).origin.publicOrigin =
      authenticator.origin.publicOrigin := by
  unfold addTrustedVoprfKey
  dsimp only
  split <;> rfl

theorem validateAndRedeem_keys (authenticator : TokenAuthenticator) (now : Nat) (token : Token)
    (challenge : TokenChallenge) :
    (authenticator.validateAndRedeem now token challenge).2.rsaKeys = authenticator.rsaKeys ∧
      (authenticator.validateAndRedeem now token challenge).2.origin = authenticator.origin := by
  unfold validateAndRedeem
  dsimp only
  split
  · exact ⟨rfl, rfl⟩
  split
  · exact ⟨rfl, rfl⟩
  split <;> exact ⟨rfl, rfl⟩

/-- Each allowed call keeps the consistency. -/
theorem Consistent.step {input : Nat × Call} (consistent : Consistent history authenticator)
    (legal : safeAllowed history input) :
    Consistent (history ++ [(input, (machine.step authenticator input).1)])
      (machine.step authenticator input).2 := by
  rcases input with ⟨now, call⟩
  cases call with
  | addTrustedKey issuer key => exact consistent.addTrustedKey legal
  | removeTrustedIssuer issuer => exact consistent.removeTrustedIssuer legal
  | addTrustedVoprfKey issuer key =>
      exact consistent.frame rfl (addTrustedVoprfKey_publicOrigin authenticator issuer key)
        (by simp) (by simp)
  | validateAndRedeem token challenge =>
      obtain ⟨keys, origin⟩ := validateAndRedeem_keys authenticator now token challenge
      exact consistent.frame keys (congrArg Origin.publicOrigin origin) (by simp) (by simp)
  | isTrusted issuer => exact consistent.frame rfl rfl (by simp) (by simp)
  | validate token challenge => exact consistent.frame rfl rfl (by simp) (by simp)
  | wouldBeReplay token => exact consistent.frame rfl rfl (by simp) (by simp)
  | markRedeemed token => exact consistent.frame rfl rfl (by simp) (by simp)
  | redemptionCacheSize => exact consistent.frame rfl rfl (by simp) (by simp)
  | pruneRedemptionCache => exact consistent.frame rfl rfl (by simp) (by simp)

/-- A new authenticator trusts no issuer and holds no key. -/
theorem consistent_create (config : TokenAuthenticatorConfig) : Consistent [] (create config) := by
  refine ⟨?_, ?_, ?_⟩
  · intro issuer key
    constructor
    · intro member
      cases member
    · intro ⟨before, after, time, absurd, _⟩
      simp at absurd
  · intro id ⟨publicOrigin, key, found, _⟩
    cases found
  · intro id ⟨time, issuer, key, answer, copy, again, member, _⟩
    cases member

/-- A token of a validation that succeeds names the id of a key that is registered under a trusted
issuer, in every run with safe removals only. -/
theorem validate_trusted {config : TokenAuthenticatorConfig}
    (runs : machine.Runs safeAllowed (create config) history authenticator) {now : Nat}
    {token : Token} {challenge : TokenChallenge}
    (valid : (authenticator.validate token challenge).valid = true ∨
      (authenticator.validateAndRedeem now token challenge).1.valid = true) :
    ∃ issuer key, authenticator.isTrusted issuer = true ∧ Registered history issuer key ∧
      key.keyId = .ok token.tokenKeyId := by
  have consistent : Consistent history authenticator :=
    runs.invariant (consistent_create config) fun _ _ _ consistent legal => consistent.step legal
  have checked : (authenticator.check token challenge).valid = true :=
    valid.elim id check_of_validateAndRedeem
  have holds := Origin.holds_of_verify (verify_of_check checked)
  obtain ⟨issuer, key, registered, named⟩ := consistent.registered _ (consistent.usable _ holds)
  refine ⟨issuer, key, ?_, registered, named⟩
  have listed := (consistent.listed issuer key).mpr registered
  cases found : authenticator.rsaKeys.lookup issuer with
  | none =>
      rw [found] at listed
      cases listed
  | some keys =>
      rw [isTrusted, found]
      rfl

end Registration
section Instances

open MultiKeyIssuer (sharedBackend sharedRsaKey sharedRsaKey_keyId sharedRsaKey_copied sharedToken
  sharedToken_verified)

/-- The window of this authenticator lasts one second. -/
def briefConfig : TokenAuthenticatorConfig :=
  { issuerName := ascii "issuer.example.com", originNames := [], replayWindow := 1 }

/-- The authenticator trusts the one key of one issuer. -/
def trustingAuthenticator (config : TokenAuthenticatorConfig) (issuer : Bytes) (n : Nat) :
    @TokenAuthenticator sharedBackend.toCryptoBackend :=
  @addTrustedKey sharedBackend.toCryptoBackend (@create sharedBackend.toCryptoBackend config) issuer
    (sharedRsaKey n)

/-- The authenticator has removed the issuer again. -/
def revokedAuthenticator (config : TokenAuthenticatorConfig) (issuer : Bytes) (n : Nat) :
    @TokenAuthenticator sharedBackend.toCryptoBackend :=
  @removeTrustedIssuer sharedBackend.toCryptoBackend (trustingAuthenticator config issuer n) issuer

def trustingHistory (issuer : Bytes) (n : Nat) :
    List ((Nat × @Call sharedBackend.toCryptoBackend) × Answer) :=
  [((0, @Call.addTrustedKey sharedBackend.toCryptoBackend issuer (sharedRsaKey n)), .done)]

def revokedHistory (issuer : Bytes) (n : Nat) :
    List ((Nat × @Call sharedBackend.toCryptoBackend) × Answer) :=
  trustingHistory issuer n ++ [((1, @Call.removeTrustedIssuer sharedBackend.toCryptoBackend issuer), .done)]

section Histories

variable {allowed : List ((Nat × @Call sharedBackend.toCryptoBackend) × Answer) →
  Nat × @Call sharedBackend.toCryptoBackend → Prop} {issuer : Bytes} {n : Nat}

/-- The issuer is added. -/
theorem trustingAuthenticator_runs (config : TokenAuthenticatorConfig)
    (adds : allowed [] (0, @Call.addTrustedKey sharedBackend.toCryptoBackend issuer (sharedRsaKey n))) :
    (@machine sharedBackend.toCryptoBackend).Runs allowed
      (@create sharedBackend.toCryptoBackend config) (trustingHistory issuer n)
      (trustingAuthenticator config issuer n) :=
  Machine.Runs.step (0, @Call.addTrustedKey sharedBackend.toCryptoBackend issuer (sharedRsaKey n))
    (Machine.Runs.start : (@machine sharedBackend.toCryptoBackend).Runs allowed
      (@create sharedBackend.toCryptoBackend config) [] _) adds

/-- The issuer is added and removed. -/
theorem revokedAuthenticator_runs (config : TokenAuthenticatorConfig)
    (adds : allowed [] (0, @Call.addTrustedKey sharedBackend.toCryptoBackend issuer (sharedRsaKey n)))
    (removes : allowed (trustingHistory issuer n)
      (1, @Call.removeTrustedIssuer sharedBackend.toCryptoBackend issuer)) :
    (@machine sharedBackend.toCryptoBackend).Runs allowed
      (@create sharedBackend.toCryptoBackend config) (revokedHistory issuer n)
      (revokedAuthenticator config issuer n) :=
  (trustingAuthenticator_runs config adds).step
    (1, @Call.removeTrustedIssuer sharedBackend.toCryptoBackend issuer) removes

end Histories

variable {n d : Nat} (exponents : BlindSignature.RsaExponents n 65537 d) (bits : bnNumBits n = rsaBits)

include exponents bits

theorem sharedRsaKey_copiesKeepId :
    @CopiesKeepId sharedBackend.toCryptoBackend (sharedRsaKey n) := by
  have copies := sharedRsaKey_copied exponents bits
  intro copy copied
  obtain rfl := Except.ok.inj (copies.symm.trans copied)
  refine ⟨rfl, fun again recopied => ?_⟩
  obtain rfl := Except.ok.inj (copies.symm.trans recopied)
  rfl

theorem trustingAuthenticator_check (config : TokenAuthenticatorConfig) (issuer : Bytes) :
    @check sharedBackend.toCryptoBackend (trustingAuthenticator config issuer n) (sharedToken n d)
      pssChallenge = .success (sharedToken n d).challengeDigest :=
  @check_of_first sharedBackend.toCryptoBackend _ (sharedRsaKey n) _ _ issuer rfl
    (sharedRsaKey_copied exponents bits) (sharedToken_verified exponents bits _)

theorem trustingAuthenticator_valid (config : TokenAuthenticatorConfig) (issuer : Bytes) :
    (@validate sharedBackend.toCryptoBackend (trustingAuthenticator config issuer n) (sharedToken n d)
      pssChallenge).valid = true := by
  rw [@validate_eq_check sharedBackend.toCryptoBackend, trustingAuthenticator_check exponents bits]
  rfl

/-- The removal of the issuer changes no validation. -/
theorem revokedAuthenticator_valid (config : TokenAuthenticatorConfig) (issuer : Bytes) :
    (@validate sharedBackend.toCryptoBackend (revokedAuthenticator config issuer n) (sharedToken n d)
      pssChallenge).valid = true := by
  rw [revokedAuthenticator, @validate_removeTrustedIssuer sharedBackend.toCryptoBackend,
    trustingAuthenticator_check exponents bits]
  rfl

omit exponents bits

/-- The issuer is added, and its token validates. -/
theorem validate_trusted_added :
    ∃ issuer key,
      @isTrusted sharedBackend.toCryptoBackend (trustingAuthenticator briefConfig [0x69] recordedModulus)
        issuer = true ∧
      @Registered sharedBackend.toCryptoBackend (trustingHistory [0x69] recordedModulus) issuer key ∧
      @BlindRsaPublicKey.keyId sharedBackend.toRsaBackend key =
        .ok (sharedToken recordedModulus recordedExponent).tokenKeyId := by
  have keeps := sharedRsaKey_copiesKeepId recorded_exponents recordedModulus_bits
  exact @validate_trusted sharedBackend.toCryptoBackend _ _ briefConfig
    (trustingAuthenticator_runs briefConfig keeps) 1 _ _
    (.inl (trustingAuthenticator_valid recorded_exponents recordedModulus_bits briefConfig [0x69]))

/-- The issuer is added and removed, and its token still validates though no issuer is trusted. -/
theorem validate_trusted_removed :
    (@machine sharedBackend.toCryptoBackend).Runs (@copiesAllowed sharedBackend.toCryptoBackend)
      (@create sharedBackend.toCryptoBackend briefConfig) (revokedHistory [0x69] recordedModulus)
      (revokedAuthenticator briefConfig [0x69] recordedModulus) ∧
    (@validate sharedBackend.toCryptoBackend (revokedAuthenticator briefConfig [0x69] recordedModulus)
      (sharedToken recordedModulus recordedExponent) pssChallenge).valid = true ∧
    ∀ issuer, @isTrusted sharedBackend.toCryptoBackend
      (revokedAuthenticator briefConfig [0x69] recordedModulus) issuer = false := by
  have keeps := sharedRsaKey_copiesKeepId recorded_exponents recordedModulus_bits
  refine ⟨revokedAuthenticator_runs briefConfig keeps trivial,
    revokedAuthenticator_valid recorded_exponents recordedModulus_bits briefConfig [0x69], ?_⟩
  intro issuer
  exact @isTrusted_removed sharedBackend.toCryptoBackend briefConfig [0x69] issuer
    (sharedRsaKey recordedModulus)

end Instances

end TokenAuthenticator
end PrivacyPass
