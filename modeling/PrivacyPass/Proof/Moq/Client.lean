import PrivacyPass.Construction.Moq.Client
import PrivacyPass.Proof.Moq.RelayExchange
import PrivacyPass.Proof.Provider.Batch

/-
This file proves for which relays the client gets tokens and what the relays grant for them.
-/

namespace PrivacyPass.Moq

open Library Crypto

namespace MoqRelay

variable [CryptoBackend] {relayName issuerName : Bytes} {history : List ((Nat × Call) × Answer)}
  {relay : MoqRelay} {required : AuthorizationInfo} {challenge : TokenChallenge}

/-- In every run the challenges of a relay name its issuer, the required info and itself. -/
theorem createChallenge_of_runs
    (runs : machine.Runs Machine.clocked (create relayName issuerName) history relay) :
    relay.createChallenge required = .ok (.create .blindRsa issuerName none
      [Base64Url.encode required.wire, relayName]) := by
  obtain ⟨inner, -, driven⟩ := runs_authenticator runs
  have remembers := driven.invariant (TokenAuthenticator.remembers_create _)
    fun _ _ _ remembers legal => remembers.step (window_fits relayName issuerName) legal
  rw [createChallenge_eq, remembers.configured]
  rfl

end MoqRelay

namespace MoqClient

section Runs

/-- The call of the provider in an event of the client. -/
def providerEvent : Call × Unit → TokenProvider.Call × Option Token
  | (.addIssuer name key, ()) => (.addIssuerKey name key, none)

/-- The keys that were added for an issuer, in their order. -/
def issuerKeys (issuerName : Bytes) (history : List (Call × Unit)) : List PublicKey :=
  history.filterMap fun event =>
    match event.1 with
    | .addIssuer name key => if name = issuerName then some key else none

variable {initial client : MoqClient} {history : List (Call × Unit)}

/-- The client drives its provider. -/
theorem runs_provider {legal : List (TokenProvider.Call × Option Token) → TokenProvider.Call → Prop}
    (adds : ∀ past name key, legal past (.addIssuerKey name key))
    (runs : machine.Runs (fun _ _ => True) initial history client) :
    TokenProvider.machine.Runs legal initial.provider (history.map providerEvent) client.provider := by
  rw [← List.filterMap_eq_map]
  refine runs.project MoqClient.provider (some ∘ providerEvent) ?_ ?_
  · rintro past state ⟨name, key⟩ - seen found
    obtain rfl := Option.some.inj found
    exact ⟨adds _ name key, rfl⟩
  · rintro past state ⟨name, key⟩ - unseen
    cases unseen

/-- The registered keys of the provider are the added keys of the client. -/
theorem registeredKeys_providerEvent (issuerName : Bytes) (history : List (Call × Unit)) :
    TokenProvider.registeredKeys issuerName ((history.map providerEvent).map Prod.fst) =
      issuerKeys issuerName history := by
  induction history using List.reverseRecOn with
  | nil => rfl
  | append_singleton history event ih =>
      obtain ⟨⟨name, key⟩, ⟨⟩⟩ := event
      rw [List.map_append, List.map_append, TokenProvider.registeredKeys, List.foldl_append,
        ← TokenProvider.registeredKeys, ih, issuerKeys, issuerKeys, List.filterMap_append]
      by_cases same : name = issuerName <;> simp [providerEvent, TokenProvider.registerCall, same]

/-- The provider of a client that started empty holds its added keys. -/
theorem runs_create (runs : machine.Runs (fun _ _ => True) create history client) :
    TokenProvider.machine.Runs (fun _ _ => True) { config := config } (history.map providerEvent)
      client.provider := runs_provider (fun _ _ _ => trivial) runs

/-- The client asks with the first key of the type that was added for the issuer. -/
theorem findKey_of_runs (runs : machine.Runs (fun _ _ => True) create history client)
    (issuerName : Bytes) (type : TokenType) : client.provider.findKey issuerName type =
      (issuerKeys issuerName history).find? fun key => decide (key.type = type) := by
  rw [TokenProvider.findKey_of_runs (runs_create runs), registeredKeys_providerEvent]

/-- The client knows one origin, and the text of an info does not spell it in any case. -/
theorem allows_iff (data relayName : Bytes) :
    (∃ candidate ∈ [Base64Url.encode data, relayName],
        candidate.map toLower = config.originName.map toLower) ↔
      relayName.map toLower = ascii "origin.example.com" := by
  have lower : config.originName.map toLower = ascii "origin.example.com" := by decide
  have undotted : ∀ char ∈ Base64Url.encodeTable, toLower char ≠ 0x2E := by decide +kernel
  rw [lower]
  constructor
  · rintro ⟨candidate, member, spelled⟩
    rcases List.mem_cons.mp member with rfl | named
    · have dot : (0x2E : UInt8) ∈ (Base64Url.encode data).map toLower := by
        rw [spelled]
        decide
      obtain ⟨char, inside, lowered⟩ := List.mem_map.mp dot
      exact absurd lowered (undotted char (Base64Url.encode_alphabet data char inside))
    · rwa [List.mem_singleton.mp named] at spelled
  · intro spelled
    exact ⟨relayName, by simp, spelled⟩

end Runs

section Exchange

variable [IssuanceBackend] {client : MoqClient} {calls : List (Call × Unit)} {relayName issuerName : Bytes}
  {history : List ((Nat × MoqRelay.Call) × MoqRelay.Answer)} {relay : MoqRelay}
  {required : AuthorizationInfo} {challenge : TokenChallenge} {draws : ProviderDraws}
  {context : TokenRequestContext}

/-- Over all runs of a client and of a relay, the client makes a request for a challenge of the relay
exactly when the relay is called origin.example.com in any case and the unified client asks with the
first Blind RSA key that was added for the relay's issuer. -/
theorem asks_of_runs (clientRuns : machine.Runs (fun _ _ => True) create calls client)
    (relayRuns : MoqRelay.machine.Runs Machine.clocked (.create relayName issuerName) history relay)
    (created : relay.createChallenge required = .ok challenge) :
    client.prepareRequest draws challenge = .ok context ↔
      relayName.map toLower = ascii "origin.example.com" ∧
      ∃ key result, (issuerKeys issuerName calls).find? (fun key => decide (key.type = .blindRsa)) =
          some key ∧
        Client.createTokenRequest draws challenge key = .ok result ∧
        challenge.digest.1 = .ok context.challengeDigest ∧
        context = ⟨result.request, result.finalizationData, context.challengeDigest⟩ := by
  rw [MoqRelay.createChallenge_of_runs relayRuns] at created
  obtain rfl := Except.ok.inj created
  have configured : client.provider.config = config :=
    (TokenProvider.issuerKeys_of_runs (runs_create clientRuns) []).1
  have named : config.originName ≠ [] := by decide
  rw [prepareRequest, TokenProvider.prepareRequest_iff, configured, TokenProvider.originInfoAllows_iff]
  dsimp only [TokenChallenge.create]
  rw [allows_iff, findKey_of_runs clientRuns]
  simp only [named, List.cons_ne_nil, ne_eq, not_false_eq_true, true_and, false_or]

/-- Over all runs of a client and of a relay, an issuer answers the client's request for a challenge of
the relay, every later client makes one token of the answer, and every relay of this name that holds
the issuer's key and has not spent the token grants exactly the actions that the client reads in the
challenge. -/
theorem granted_of_runs (hashes : HashesSucceed) (pss : PssConforms) {secret issued : EvpPkey} {d : Nat}
    {spki : Bytes} {keyId : TokenKeyId} (pair : IssuerKeyPair secret issued d spki keyId)
    (clientRuns : machine.Runs (fun _ _ => True) create calls client)
    (relayRuns : MoqRelay.machine.Runs Machine.clocked (.create relayName issuerName) history relay)
    (created : relay.createChallenge required = .ok challenge)
    (found : (issuerKeys issuerName calls).find? (fun key => decide (key.type = .blindRsa)) =
      some ⟨.blindRsa, spki, keyId⟩)
    (salt : draws.salt.length = saltLength)
    (prepared : client.prepareRequest draws challenge = .ok context) :
    ∃ response token, (PublicIssuer.create ⟨some secret⟩).issue context.request = .ok response ∧
      draws.nonce = some token.nonce ∧
      (∀ more later, machine.Runs (fun _ _ => True) client more later → ∀ walk : later.provider.Walk,
        walk.Takes ⟨.blindRsa, spki, keyId⟩ → later.finalize walk response context = .ok token) ∧
      ∀ seen gate, MoqRelay.machine.Runs Machine.clocked (.create relayName issuerName) seen gate →
        token.nonce ∉ (MoqRelay.spendings seen).map NonceEntry.nonce →
        ∀ held, (MoqRelay.reference relayName issuerName seen).HoldsKey keyId held →
        held.pkey = some issued → ∀ tick action ns track,
          (gate.verifyAndAuthorize tick token challenge action ns track).1.valid =
            tokenAuthorizes challenge action ns track := by
  rw [MoqRelay.createChallenge_of_runs relayRuns] at created
  obtain rfl := Except.ok.inj created
  have asked : client.provider.findKey issuerName .blindRsa = some ⟨.blindRsa, spki, keyId⟩ :=
    (findKey_of_runs clientRuns issuerName .blindRsa).trans found
  obtain ⟨-, -, typed, drawn, digested, identified, signature, token, -, issues, certified, finalizes⟩ :=
    TokenProvider.prepareRequest_answered hashes pss pair rfl asked salt prepared
  refine ⟨_, token, issues, certified.nonce ▸ drawn, ?_, ?_⟩
  · intro more later laterRuns walk takes
    have kept : TokenProvider.machine.Runs (fun _ call => call ≠ .removeIssuer issuerName) client.provider
        (more.map providerEvent) later.provider := runs_provider (by simp) laterRuns
    exact finalizes later.provider
      (TokenProvider.holds_of_runs (TokenProvider.holds_of_findKey asked).1 kept) walk takes
  · intro seen gate gateRuns unspent held holds same tick action ns track
    rw [← identified, ← certified.named] at holds
    have verified := certified.accepted (.inl (certified.typed.trans typed))
      (certified.digest ▸ digested) holds same.symm
    cases decoded : AuthorizationInfo.decodeFromOriginInfo (Base64Url.encode required.wire) with
    | error error =>
        have unread : tokenAuthorizes (.create .blindRsa issuerName none
            [Base64Url.encode required.wire, relayName]) action ns track = false := by
          simp [tokenAuthorizes, parseAuthInfo, TokenChallenge.create, decoded]
        rw [unread, Bool.eq_false_iff]
        intro valid
        obtain ⟨-, info, first, rest, entries, again, -⟩ := MoqRelay.verifyAndAuthorize_valid.mp valid
        obtain ⟨rfl, -⟩ := List.cons.inj entries
        rw [decoded] at again
        cases again
    | ok info =>
        have read : tokenAuthorizes (.create .blindRsa issuerName none
            [Base64Url.encode required.wire, relayName]) action ns track =
              info.authorizes action ns track := by
          simp [tokenAuthorizes, parseAuthInfo, TokenChallenge.create, decoded]
        rw [read, MoqRelay.verifyAndAuthorize_fresh gateRuns unspent verified rfl decoded]
        cases info.authorizes action ns track <;> rfl

end Exchange

section Instances

open MultiKeyIssuer (sharedBackend sharedBackend_hashes sharedBackend_conforms sharedKeyId sharedKey_pair
  sharedRsaKey)
open MoqRelay (publisherInfo sharedKey_asks)
open TokenProvider (sharedIssuerName sharedPublicKey sharedProviderDraws)

abbrev subscribedClient (n : Nat) : MoqClient :=
  create.addIssuer sharedIssuerName (sharedPublicKey .blindRsa n)

def subscribedCalls (n : Nat) : List (Call × Unit) :=
  [(.addIssuer sharedIssuerName (sharedPublicKey .blindRsa n), ())]

theorem subscribedClient_runs (n : Nat) : machine.Runs (fun _ _ => True) create (subscribedCalls n)
    (subscribedClient n) := Machine.Runs.start.next trivial rfl

/-- The challenge of a relay with the given name. -/
def namedChallenge (relayName : Bytes) : TokenChallenge :=
  .create .blindRsa sharedIssuerName none [Base64Url.encode publisherInfo.wire, relayName]

theorem namedChallenge_created (relayName : Bytes) : @MoqRelay.createChallenge sharedBackend.toCryptoBackend
    (@MoqRelay.create sharedBackend.toCryptoBackend relayName sharedIssuerName) publisherInfo =
      .ok (namedChallenge relayName) :=
  @MoqRelay.createChallenge_of_runs sharedBackend.toCryptoBackend _ _ _ _ _ .start

def ownChallenge : TokenChallenge := namedChallenge (ascii "Origin.Example.com")

/-- The client has a request for the relay with its own origin for a name. -/
theorem subscribedClient_prepares {n d : Nat} (exponents : BlindSignature.RsaExponents n 65537 d)
    (bits : bnNumBits n = rsaBits) : ∃ context,
      @prepareRequest sharedBackend (subscribedClient n) sharedProviderDraws ownChallenge = .ok context := by
  have encodable : ownChallenge.Encodable := ⟨by decide, by decide, by decide⟩
  obtain ⟨digest, hashed⟩ := @HashesSucceed.sha256 sharedBackend.toRsaBackend sharedBackend_hashes
    (TokenChallenge.wire ownChallenge.tokenType.value ownChallenge.issuerName
      ownChallenge.redemptionContext ownChallenge.originInfoString)
  have digested : (@TokenChallenge.digest sharedBackend.toHashBackend ownChallenge).1 = .ok digest := by
    rw [@TokenChallenge.digest_fresh sharedBackend.toHashBackend _ _ rfl
      (TokenChallenge.serialize_ok encodable), @sha256.eq_1 sharedBackend.toHashBackend, hashed]
  obtain ⟨result, asked⟩ := sharedKey_asks exponents bits rfl digested
  have allowed : originInfoAllows (subscribedClient n).provider.config.originName
      ownChallenge.originInfo = true := by
    rw [TokenProvider.originInfoAllows_iff]
    exact .inr ⟨(by decide : config.originName ≠ []), (allows_iff _ _).mpr (by decide)⟩
  refine ⟨⟨result.request, result.finalizationData, digest⟩, ?_⟩
  refine (@TokenProvider.prepareRequest_iff sharedBackend _ _ _ _).mpr ⟨allowed, _, result, ?_, asked,
    digested, rfl⟩
  exact TokenProvider.sharedProvider_findKey .blindRsa n

/-- The client asks no relay whose name is not its own origin, as that of the examples. -/
theorem asks_of_runs_relay : ¬ ∃ context, @prepareRequest sharedBackend (subscribedClient recordedModulus)
    sharedProviderDraws (namedChallenge (ascii "relay.example.com")) = .ok context := by
  rintro ⟨context, prepared⟩
  have asked := (@asks_of_runs sharedBackend _ _ _ _ _ _ _ _ _ _ (subscribedClient_runs _) .start
    (namedChallenge_created _)).mp prepared
  exact absurd asked.1 (by decide)

/-- A relay with the client's own origin for a name and the shared key. -/
abbrev ownRelay (n : Nat) : @MoqRelay sharedBackend.toCryptoBackend :=
  @MoqRelay.addTrustedIssuer sharedBackend.toCryptoBackend
    (@MoqRelay.create sharedBackend.toCryptoBackend (ascii "Origin.Example.com") sharedIssuerName)
    (sharedRsaKey n)

/-- The publisher is granted its action with the token that the client gets. -/
theorem granted_of_runs_publisher : ∃ token : Token,
    (@MoqRelay.verifyAndAuthorize sharedBackend.toCryptoBackend (ownRelay recordedModulus) 1 token
      ownChallenge .publish [[0x61]] [0x76]).1.valid = true := by
  have granted {n d : Nat} (exponents : BlindSignature.RsaExponents n 65537 d)
      (bits : bnNumBits n = rsaBits) : ∃ token : Token,
        (@MoqRelay.verifyAndAuthorize sharedBackend.toCryptoBackend (ownRelay n) 1 token ownChallenge
          .publish [[0x61]] [0x76]).1.valid = true := by
    obtain ⟨context, prepared⟩ := subscribedClient_prepares exponents bits
    have found : (issuerKeys sharedIssuerName (subscribedCalls n)).find?
        (fun key => decide (key.type = .blindRsa)) = some (sharedPublicKey .blindRsa n) := by
      simp [issuerKeys, subscribedCalls, sharedPublicKey]
    obtain ⟨-, token, -, -, -, grants⟩ := @granted_of_runs sharedBackend _ _ _ _ _ _ _ _ _ _
      sharedBackend_hashes sharedBackend_conforms _ _ _ _ _ (sharedKey_pair exponents bits)
      (subscribedClient_runs n) .start (namedChallenge_created _) found List.length_replicate prepared
    have read : parseAuthInfo ownChallenge = .ok publisherInfo :=
      AuthorizationInfo.decodeFromOriginInfo_encode MoqRelay.publisherInfo_encodable
    refine ⟨token, ?_⟩
    rw [ownChallenge, grants _ _ (MoqRelay.sharedHistory_runs _ _ n) (MoqRelay.sharedHistory_unspent n _) _
      (MoqRelay.sharedHistory_holds _ _ exponents bits) rfl, ← ownChallenge, tokenAuthorizes, read]
    decide
  exact granted recorded_exponents recordedModulus_bits

end Instances

end MoqClient
end PrivacyPass.Moq
