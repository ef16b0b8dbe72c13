import PrivacyPass.Proof.Authenticator.Revocation
import PrivacyPass.Proof.Origin.Redemptions

/-
This file proves that the authenticator answers as a public origin with copies of its keys.
-/

namespace PrivacyPass

open Library Crypto

/-- A verifier names the digest of an accepted token or the code of its error. -/
abbrev Verdict := Except (Option ErrorCode) (Option ChallengeDigest)

def ValidationResult.verdict (result : ValidationResult) : Verdict :=
  if result.valid then .ok result.challengeDigest else .error result.errorCode

namespace TokenAuthenticator

/-- The verdict that stands for the answer of an origin about a token with this digest. -/
def verdictOf (digest : ChallengeDigest) : Result Bool → Verdict
  | .ok true => .ok (some digest)
  | .ok false => .error (some .tokenInvalid)
  | .error error => .error (some error.code)

section Checks

variable [CryptoBackend] {authenticator : TokenAuthenticator} {token : Token} {challenge : TokenChallenge}

/-- The checks succeed exactly when the origin verifies the signature. -/
theorem check_valid_iff : (authenticator.check token challenge).valid = true ↔
    authenticator.origin.verify token challenge = .ok true := by
  constructor
  · exact verify_of_check
  · intro verified
    have verified' := verified
    unfold Origin.verify at verified'
    split at verified'
    · split at verified'
      · next publicOrigin found => rw [check_of_verify found verified', ValidationResult.success]
      · cases verified'
    · split at verified' <;> cases verified'

/-- Where the challenge has a digest, the checks repeat what a public origin checks first, so that
both end with the same verdict. An authenticator without a key acts as an origin without one. -/
theorem check_verdict {digest : ChallengeDigest} (digested : challenge.digest.1 = .ok digest)
    (typed : token.tokenType = .blindRsa ∨ token.tokenType = .partiallyBlindRsa)
    {config : OriginConfig} {keys : List BlindRsaPublicKey}
    (held : authenticator.origin.publicOrigin =
      if keys = [] then none else some (.create config keys)) :
    (authenticator.check token challenge).verdict =
      verdictOf token.challengeDigest ((PublicOrigin.create config keys).verify token challenge) := by
  unfold check
  cases structured : token.validate with
  | error error =>
      rw [PublicOrigin.verify, structured]
      rfl
  | ok done =>
      simp only [digested]
      split
      · next different =>
          rw [PublicOrigin.verify, structured, Result.bind_ok rfl, if_neg (by tauto),
            Result.bind_ok digested, if_pos different]
          rfl
      · next same =>
          rw [Origin.verify, if_pos typed, held]
          split_ifs with empty
          · subst empty
            rw [PublicOrigin.verify, structured, Result.bind_ok rfl, if_neg (by tauto),
              Result.bind_ok digested, if_neg same]
            rfl
          · rw [Bool.not_eq_false, constantTimeEqual_iff] at same
            obtain rfl : token.challengeDigest = digest := Subtype.ext same
            dsimp only
            cases (PublicOrigin.create config keys).verify token challenge with
            | error error => rfl
            | ok answer => cases answer <;> rfl

end Checks

section Runs

variable [CryptoBackend]

/-- The addition of a trusted key is the addition of its copy to the origin. -/
def originEvent : (Nat × Call) × Answer → Option ((Nat × Origin.Call) × PublicOrigin.Answer)
  | ((tick, .addTrustedKey _ key), _) =>
      (Origin.copyRsaKey key).toOption.map fun copy => ((tick, .addBlindRsaKey copy), .done)
  | ((tick, .addTrustedVoprfKey _ key), _) =>
      (Origin.copyVoprfKey key).toOption.map fun copy => ((tick, .addVoprfKey copy), .done)
  | _ => none

/-- The RSA keys that were added under any issuer, in their order. -/
def trustedKeys (history : List ((Nat × Call) × Answer)) : List BlindRsaPublicKey :=
  history.filterMap fun event =>
    match event.1.2 with
    | .addTrustedKey _ key => some key
    | _ => none

/-- A key addition makes the issuer trusted, and its removal ends the trust. -/
def trusts (issuer : Bytes) : (Nat × Call) × Answer → Option Bool
  | ((_, .addTrustedKey name _), _) => if name = issuer then some true else none
  | ((_, .addTrustedVoprfKey name _), _) => if name = issuer then some true else none
  | ((_, .removeTrustedIssuer name), _) => if name = issuer then some false else none
  | _ => none

variable {allowed : List ((Nat × Call) × Answer) → Nat × Call → Prop}
  {config : TokenAuthenticatorConfig} {history : List ((Nat × Call) × Answer)}
  {authenticator initial : TokenAuthenticator}

/-- The authenticator drives its origin by key additions only. -/
theorem runs_origin (runs : machine.Runs allowed initial history authenticator) :
    Origin.machine.Runs (fun _ _ => True) initial.origin (history.filterMap originEvent)
      authenticator.origin := by
  refine runs.project TokenAuthenticator.origin originEvent ?_ ?_
  · rintro history state ⟨tick, call⟩ legal seen found
    refine ⟨trivial, ?_⟩
    cases call with
    | addTrustedKey issuer key =>
        cases copied : Origin.copyRsaKey key with
        | error error =>
            rw [originEvent, copied] at found
            cases found
        | ok copy =>
            rw [originEvent, copied] at found
            cases found
            exact congrArg (Prod.mk PublicOrigin.Answer.done) (addTrustedKey_origin copied).symm
    | addTrustedVoprfKey issuer key =>
        cases copied : Origin.copyVoprfKey key with
        | error error =>
            rw [originEvent, copied] at found
            cases found
        | ok copy =>
            rw [originEvent, copied] at found
            cases found
            simp only [machine, Origin.machine, addTrustedVoprfKey, copied]
    | _ => cases found
  · rintro history state ⟨tick, call⟩ legal hidden
    cases call with
    | addTrustedKey issuer key =>
        simp only [machine, addTrustedKey]
        cases copied : Origin.copyRsaKey key with
        | error error => rfl
        | ok copy =>
            rw [originEvent, copied] at hidden
            cases hidden
    | addTrustedVoprfKey issuer key =>
        simp only [machine, addTrustedVoprfKey]
        cases copied : Origin.copyVoprfKey key with
        | error error => rfl
        | ok copy =>
            rw [originEvent, copied] at hidden
            cases hidden
    | validateAndRedeem token challenge => exact (validateAndRedeem_keys state tick token challenge).2
    | _ => rfl

/-- The keys that reach the origin are the copies of the trusted keys. -/
theorem addedKeys_originEvents (history : List ((Nat × Call) × Answer)) :
    Origin.addedKeys (history.filterMap originEvent) = Origin.copiedKeys (trustedKeys history) := by
  unfold Origin.addedKeys Origin.copiedKeys trustedKeys
  rw [List.filterMap_filterMap, List.filterMap_filterMap]
  congr 1
  funext event
  rcases event with ⟨⟨tick, call⟩, answer⟩
  cases call with
  | addTrustedKey issuer key =>
      cases copied : Origin.copyRsaKey key <;> simp [originEvent, copied, Except.toOption]
  | addTrustedVoprfKey issuer key =>
      cases copied : Origin.copyVoprfKey key <;> simp [originEvent, copied, Except.toOption]
  | _ => rfl

theorem isTrusted_addTrustedKey (authenticator : TokenAuthenticator) (name issuer : Bytes)
    (key : BlindRsaPublicKey) : (authenticator.addTrustedKey name key).isTrusted issuer =
      (decide (name = issuer) || authenticator.isTrusted issuer) := by
  by_cases same : name = issuer
  · simp [isTrusted, addTrustedKey, same]
  · simp [isTrusted, addTrustedKey, same, AList.lookup_insert_ne (Ne.symm same)]

theorem isTrusted_addTrustedVoprfKey (authenticator : TokenAuthenticator) (name issuer : Bytes)
    (key : VoprfPublicKey) : (authenticator.addTrustedVoprfKey name key).isTrusted issuer =
      (decide (name = issuer) || authenticator.isTrusted issuer) := by
  by_cases same : name = issuer
  · simp [isTrusted, addTrustedVoprfKey, same]
  · simp [isTrusted, addTrustedVoprfKey, same, AList.lookup_insert_ne (Ne.symm same)]

theorem isTrusted_removeTrustedIssuer (authenticator : TokenAuthenticator) (name issuer : Bytes) :
    (authenticator.removeTrustedIssuer name).isTrusted issuer =
      (!decide (name = issuer) && authenticator.isTrusted issuer) := by
  by_cases same : name = issuer
  · simp [isTrusted, removeTrustedIssuer, same]
  · simp [isTrusted, removeTrustedIssuer, same, AList.lookup_erase_ne (Ne.symm same)]

theorem validateAndRedeem_voprfKeys (authenticator : TokenAuthenticator) (now : Nat) (token : Token)
    (challenge : TokenChallenge) :
    (authenticator.validateAndRedeem now token challenge).2.voprfKeys = authenticator.voprfKeys := by
  unfold validateAndRedeem
  dsimp only
  split
  · rfl
  split
  · rfl
  split <;> rfl

/-- An issuer is trusted exactly when the last call that adds a key of it or removes it adds one. -/
theorem isTrusted_of_runs (runs : machine.Runs allowed (create config) history authenticator)
    (issuer : Bytes) :
    authenticator.isTrusted issuer = (Machine.lastWrite (trusts issuer) history).getD false := by
  refine @Machine.Runs.shows_lastWrite _ _ _ machine allowed _ _ _ _ _ (trusts issuer)
    (fun last trusted => trusted = last.getD false) (fun authenticator => authenticator.isTrusted issuer)
    rfl ?_ ?_ runs
  · rintro history state ⟨tick, call⟩ legal _ value found
    cases call with
    | addTrustedKey name key =>
        obtain ⟨same, wrote⟩ := Option.ite_none_right_eq_some.mp found
        cases wrote
        simp [machine, isTrusted_addTrustedKey, same]
    | addTrustedVoprfKey name key =>
        obtain ⟨same, wrote⟩ := Option.ite_none_right_eq_some.mp found
        cases wrote
        simp [machine, isTrusted_addTrustedVoprfKey, same]
    | removeTrustedIssuer name =>
        obtain ⟨same, wrote⟩ := Option.ite_none_right_eq_some.mp found
        cases wrote
        simp [machine, isTrusted_removeTrustedIssuer, same]
    | _ => cases found
  · rintro history state ⟨tick, call⟩ legal _ hidden
    cases call with
    | addTrustedKey name key =>
        have other : ¬ name = issuer := by
          intro same
          simp [trusts, same] at hidden
        simp [machine, isTrusted_addTrustedKey, other]
    | addTrustedVoprfKey name key =>
        have other : ¬ name = issuer := by
          intro same
          simp [trusts, same] at hidden
        simp [machine, isTrusted_addTrustedVoprfKey, other]
    | removeTrustedIssuer name =>
        have other : ¬ name = issuer := by
          intro same
          simp [trusts, same] at hidden
        simp [machine, isTrusted_removeTrustedIssuer, other]
    | validateAndRedeem token challenge =>
        simp only [machine, isTrusted, (validateAndRedeem_keys state tick token challenge).1,
          validateAndRedeem_voprfKeys]
    | _ => rfl

/-- The public origin that holds the copies of the copies of the trusted keys. -/
def reference (config : TokenAuthenticatorConfig) (history : List ((Nat × Call) × Answer)) :
    PublicOrigin :=
  .create (create config).origin.config (Origin.copiedKeys (Origin.copiedKeys (trustedKeys history)))

/-- The checks of a token succeed exactly when the public origin with all the added keys accepts it. -/
theorem check_of_runs (runs : machine.Runs allowed (create config) history authenticator) (token : Token)
    (challenge : TokenChallenge) : (authenticator.check token challenge).valid = true ↔
      (reference config history).verify token challenge = .ok true := by
  have answers := Origin.verify_of_runs (runs_origin runs) token challenge true
  rw [addedKeys_originEvents history] at answers
  exact check_valid_iff.trans answers

/-- Over every run of key additions, removals, validations and redemptions a token validates exactly
when a public origin with all the keys ever added accepts it, for RSA tokens the two end with the
same verdict, and the trust in an issuer is what the last call about it has made of it. -/
theorem validate_of_runs (runs : machine.Runs allowed (create config) history authenticator) :
    (∀ token challenge, (authenticator.validate token challenge).valid = true ↔
      (reference config history).verify token challenge = .ok true) ∧
    (∀ token challenge digest, challenge.digest.1 = .ok digest →
      token.tokenType = .blindRsa ∨ token.tokenType = .partiallyBlindRsa →
        (authenticator.validate token challenge).verdict =
          verdictOf token.challengeDigest ((reference config history).verify token challenge)) ∧
    ∀ issuer, authenticator.isTrusted issuer = true ↔
      Machine.lastWrite (trusts issuer) history = some true := by
  refine ⟨check_of_runs runs, ?_, ?_⟩
  · intro token challenge digest digested typed
    have held := (Origin.publicOrigin_of_runs (runs_origin runs)).2
    rw [(Origin.publicOrigin_addBlindRsaKeys _ _).2, addedKeys_originEvents] at held
    exact check_verdict digested typed held
  · intro issuer
    rw [isTrusted_of_runs runs, Option.getD_eq_iff]
    simp

end Runs

section Instances

open MultiKeyIssuer (sharedBackend sharedRsaKey sharedRsaKey_copied sharedToken sharedToken_verified
  sharedDigest sharedDigest_eq)

/-- The public origin of the run holds the shared key, and it accepts the token. -/
theorem reference_revoked {n d : Nat} (exponents : BlindSignature.RsaExponents n 65537 d)
    (bits : bnNumBits n = rsaBits) (config : TokenAuthenticatorConfig) (issuer : Bytes) :
    @PublicOrigin.verify sharedBackend.toRsaBackend
      (@reference sharedBackend.toCryptoBackend config (revokedHistory issuer n)) (sharedToken n d)
      pssChallenge = .ok true := by
  have keys : @Origin.copiedKeys sharedBackend.toCryptoBackend [sharedRsaKey n] = [sharedRsaKey n] :=
    @Origin.copiedKeys_concat sharedBackend.toCryptoBackend [] _ _ (sharedRsaKey_copied exponents bits)
  have held : @trustedKeys sharedBackend.toCryptoBackend (revokedHistory issuer n) = [sharedRsaKey n] :=
    rfl
  rw [@reference.eq_1 sharedBackend.toCryptoBackend, held, keys, keys]
  exact sharedToken_verified exponents bits _

/-- The token keeps its verdict after its issuer was removed, and the issuer is not trusted. -/
theorem validate_of_runs_revoked :
    (@validate sharedBackend.toCryptoBackend (revokedAuthenticator briefConfig [0x69] recordedModulus)
      (sharedToken recordedModulus recordedExponent) pssChallenge).verdict =
      .ok (some (sharedToken recordedModulus recordedExponent).challengeDigest) ∧
    ¬ @isTrusted sharedBackend.toCryptoBackend (revokedAuthenticator briefConfig [0x69] recordedModulus)
      [0x69] = true := by
  obtain ⟨-, verdicts, trusted⟩ := @validate_of_runs sharedBackend.toCryptoBackend _ _ _ _
    (revokedAuthenticator_runs briefConfig trivial trivial :
      Machine.Runs _ (fun _ _ => True) _ (revokedHistory [0x69] recordedModulus) _)
  constructor
  · rw [verdicts _ _ sharedDigest sharedDigest_eq (.inl rfl),
      reference_revoked recorded_exponents recordedModulus_bits]
    rfl
  · rw [trusted]
    simp [revokedHistory, trustingHistory, Machine.lastWrite, trusts]

end Instances

end TokenAuthenticator
end PrivacyPass
