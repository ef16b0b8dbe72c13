import PrivacyPass.Proof.UnifiedClient

/-
This file proves for which challenges the provider prepares a request, over every run of its calls.
-/

namespace PrivacyPass.TokenProvider

open Library Crypto

section Origins

/-- Two names are equal without regard to case exactly when their lower-case forms are equal. -/
theorem asciiEqualCaseInsensitive_iff {a b : Bytes} :
    asciiEqualCaseInsensitive a b = true ↔ a.map toLower = b.map toLower := by
  unfold asciiEqualCaseInsensitive
  induction a generalizing b with
  | nil => cases b <;> simp
  | cons head tail ih =>
      cases b with
      | nil => simp
      | cons other rest =>
          have rest := @ih rest
          simp only [Bool.and_eq_true, beq_iff_eq, List.length_cons, Nat.add_right_cancel_iff,
            List.zip_cons_cons, List.all_cons, List.map_cons, List.cons.injEq] at rest ⊢
          rw [← rest]
          tauto

/-- A challenge allows an origin when it names no origin or names this one in any case. -/
theorem originInfoAllows_iff {origin : Bytes} {originInfo : List Bytes} :
    originInfoAllows origin originInfo = true ↔ originInfo = [] ∨
      origin ≠ [] ∧ ∃ candidate ∈ originInfo, candidate.map toLower = origin.map toLower := by
  unfold originInfoAllows
  split
  · next empty => simp [List.isEmpty_iff.mp empty]
  split
  · next named empty =>
      rw [List.isEmpty_iff] at named empty
      simp [named, empty]
  · next named given =>
      rw [List.isEmpty_iff] at named given
      simp only [List.any_eq_true, asciiEqualCaseInsensitive_iff, named, given, ne_eq, not_false_eq_true,
        true_and, false_or]
      simp only [eq_comm]

end Origins

section Registry

/-- A registration appends its key, and a removal drops the keys of the issuer. -/
def registerCall (issuerName : Bytes) (keys : List PublicKey) : Call → List PublicKey
  | .addIssuerKey name key => if name = issuerName then keys ++ [key] else keys
  | .removeIssuer name => if name = issuerName then [] else keys
  | _ => keys

/-- The keys of an issuer that the calls have registered since its last removal. -/
def registeredKeys (issuerName : Bytes) (calls : List Call) : List PublicKey :=
  calls.foldl (registerCall issuerName) []

variable {allowed : List (Call × Option Token) → Call → Prop}
  {config : TokenProviderConfig} {history : List (Call × Option Token)} {provider : TokenProvider}

/-- The provider holds the registered keys of each issuer in their order, and the stock of tokens
does not matter. -/
theorem issuerKeys_of_runs (runs : machine.Runs allowed { config := config } history provider)
    (issuerName : Bytes) :
    provider.config = config ∧ (provider.issuerKeys.lookup issuerName).getD [] =
      registeredKeys issuerName (history.map Prod.fst) := by
  induction runs with
  | start => exact ⟨rfl, rfl⟩
  | @step history provider call before legal ih =>
      obtain ⟨configured, held⟩ := ih
      rw [List.map_append, List.map_cons, List.map_nil, registeredKeys, List.foldl_append,
        ← registeredKeys, ← held, List.foldl_cons, List.foldl_nil]
      cases call with
      | addIssuerKey name key =>
          refine ⟨configured, ?_⟩
          change ((provider.addIssuerKey name key).issuerKeys.lookup issuerName).getD [] =
            if name = issuerName then _ else _
          unfold addIssuerKey
          split
          · next same => rw [same, AList.lookup_insert, Option.getD_some]
          · next different => rw [AList.lookup_insert_ne (Ne.symm different)]
      | removeIssuer name =>
          refine ⟨configured, ?_⟩
          change ((provider.removeIssuer name).issuerKeys.lookup issuerName).getD [] =
            if name = issuerName then _ else _
          unfold removeIssuer
          split
          · next same => rw [same, AList.lookup_erase, Option.getD_none]
          · next different => rw [AList.lookup_erase_ne (Ne.symm different)]
      | storeTokens challengeDigest tokens => exact ⟨configured, rfl⟩
      | getCachedToken challengeDigest =>
          change (provider.getCachedToken challengeDigest).2.config = config ∧
            ((provider.getCachedToken challengeDigest).2.issuerKeys.lookup issuerName).getD [] = _
          rw [getCachedToken_issuerKeys]
          refine ⟨?_, rfl⟩
          unfold getCachedToken
          split
          · exact configured
          · split <;> exact configured
      | clearCache => exact ⟨configured, rfl⟩

/-- The key for a type is the first registered one with it. -/
theorem findKey_of_runs (runs : machine.Runs allowed { config := config } history provider)
    (issuerName : Bytes) (type : TokenType) :
    provider.findKey issuerName type =
      (registeredKeys issuerName (history.map Prod.fst)).find? fun key => decide (key.type = type) := by
  rw [findKey, ← (issuerKeys_of_runs runs issuerName).2]
  cases provider.issuerKeys.lookup issuerName <;> rfl

end Registry

section Requests

variable [IssuanceBackend] {provider : TokenProvider} {challenge : TokenChallenge}
  {draws : ProviderDraws} {context : TokenRequestContext}

/-- With a found key the provider asks as the unified client does with this key. -/
theorem prepareRequest_found {key : PublicKey}
    (allowed : originInfoAllows provider.config.originName challenge.originInfo = true)
    (found : provider.findKey challenge.issuerName challenge.tokenType = some key) :
    provider.prepareRequest draws challenge = (do
      let digest ← challenge.digest.1
      let result ← Client.createTokenRequest draws challenge key
      .ok ⟨result.request, result.finalizationData, digest⟩) := by
  have same : ¬ challenge.tokenType ≠ key.type := not_not.mpr (holds_of_findKey found).2.symm
  rw [prepareRequest, allowed, if_neg (by simp)]
  simp only [found]
  apply bind_congr
  intro digest
  rw [Client.createTokenRequest, if_neg same]
  split
  · rw [bind_assoc]
  split
  · rw [bind_assoc]
  · rfl

/-- The provider prepares a request exactly when the challenge allows its origin and the unified
client asks with the first key of the issuer for the type, and the request is that of the client. -/
theorem prepareRequest_iff : provider.prepareRequest draws challenge = .ok context ↔
    originInfoAllows provider.config.originName challenge.originInfo = true ∧
    ∃ key result, provider.findKey challenge.issuerName challenge.tokenType = some key ∧
      Client.createTokenRequest draws challenge key = .ok result ∧
      challenge.digest.1 = .ok context.challengeDigest ∧
      context = ⟨result.request, result.finalizationData, context.challengeDigest⟩ := by
  by_cases allowed : originInfoAllows provider.config.originName challenge.originInfo = true
  · cases found : provider.findKey challenge.issuerName challenge.tokenType with
    | none =>
        apply iff_of_false
        · rw [prepareRequest, allowed, if_neg (by simp)]
          simp [found]
        · simp
    | some key =>
        rw [prepareRequest_found allowed found]
        constructor
        · intro prepared
          obtain ⟨digest, digested, asking⟩ := Result.bind_eq_ok.mp prepared
          obtain ⟨result, created, made⟩ := Result.bind_eq_ok.mp asking
          obtain rfl := Except.ok.inj made
          exact ⟨allowed, key, result, rfl, created, digested, rfl⟩
        · rintro ⟨-, taken, result, again, created, digested, made⟩
          obtain rfl := Option.some.inj again
          rw [Result.bind_ok digested, Result.bind_ok created, ← made]
  · apply iff_of_false
    · rw [prepareRequest, if_pos (Bool.not_eq_true _ ▸ allowed)]
      simp
    · intro prepared
      exact allowed prepared.1

/-- After every run of its calls the provider prepares a request exactly when the challenge names no
origin or its own in any case and the unified client asks with the first key of the challenge's type
that was registered since the last removal of the issuer, and the request is that of the client. -/
theorem prepareRequest_of_runs {allowed : List (Call × Option Token) → Call → Prop}
    {config : TokenProviderConfig} {history : List (Call × Option Token)}
    (runs : machine.Runs allowed { config := config } history provider) :
    provider.prepareRequest draws challenge = .ok context ↔
    (challenge.originInfo = [] ∨ config.originName ≠ [] ∧ ∃ candidate ∈ challenge.originInfo,
      candidate.map toLower = config.originName.map toLower) ∧
    ∃ key result, (registeredKeys challenge.issuerName (history.map Prod.fst)).find?
        (fun key => decide (key.type = challenge.tokenType)) = some key ∧
      Client.createTokenRequest draws challenge key = .ok result ∧
      challenge.digest.1 = .ok context.challengeDigest ∧
      context = ⟨result.request, result.finalizationData, context.challengeDigest⟩ := by
  rw [prepareRequest_iff, findKey_of_runs runs, (issuerKeys_of_runs runs []).1, originInfoAllows_iff]

end Requests

section Instances

open MultiKeyIssuer (sharedBackend)

/-- The provider forgets its first key and learns another one. -/
def replacedCalls : List Call :=
  [.addIssuerKey sharedIssuerName (sharedPublicKey .blindRsa 1), .removeIssuer sharedIssuerName,
    .addIssuerKey sharedIssuerName (sharedPublicKey .blindRsa recordedModulus)]

def shoutingConfig : TokenProviderConfig := { originName := ascii "ORIGIN.example.com" }

/-- The provider asks with the key that it has learned last, and the case of its origin is ignored. -/
theorem prepareRequest_of_runs_recorded : ∃ provider context,
    machine.Runs (fun _ _ => True) { config := shoutingConfig } (replacedCalls.map fun call => (call, none))
      provider ∧
    @prepareRequest sharedBackend provider sharedProviderDraws (sharedChallenge .blindRsa) =
      .ok context := by
  obtain ⟨result, response, created, -⟩ :=
    Client.sharedKey_created recorded_exponents recordedModulus_bits (.inl rfl)
  have digested : (@TokenChallenge.digest sharedBackend.toHashBackend (sharedChallenge .blindRsa)).1 =
      .ok result.finalizationData.challengeDigest := by
    rcases (@Client.createTokenRequest_eq_ok sharedBackend _ _ _ _ created).2 with
      ⟨-, rsaKey, -, made⟩ | ⟨voprf, -⟩
    · exact (@PublicClient.createTokenRequest_data sharedBackend.toRsaBackend _ _ _ _ made).2.2.1
    · exact absurd voprf (by decide)
  have runs := (((Machine.Runs.start : machine.Runs (fun _ _ => True)
    ({ config := shoutingConfig } : TokenProvider) [] _).step
      (.addIssuerKey sharedIssuerName (sharedPublicKey .blindRsa 1)) trivial).step
      (.removeIssuer sharedIssuerName) trivial).step
      (.addIssuerKey sharedIssuerName (sharedPublicKey .blindRsa recordedModulus)) trivial
  refine ⟨_, ⟨result.request, result.finalizationData, result.finalizationData.challengeDigest⟩, runs, ?_⟩
  refine (@prepareRequest_of_runs sharedBackend _ _ _ _ _ _ _ runs).mpr ⟨.inr ⟨?_, ?_⟩, ?_⟩
  · decide
  · exact ⟨ascii "origin.example.com", List.mem_singleton.mpr rfl, by decide⟩
  · refine ⟨_, result, ?_, created, digested, rfl⟩
    simp [registeredKeys, registerCall, sharedChallenge, sharedPublicKey, TokenChallenge.create]

end Instances

end PrivacyPass.TokenProvider
