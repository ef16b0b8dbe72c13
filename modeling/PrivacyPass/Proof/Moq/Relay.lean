import PrivacyPass.Construction.Moq.Relay
import PrivacyPass.Proof.Authenticator.Agreement
import PrivacyPass.Proof.Authenticator.Redemption
import PrivacyPass.Proof.ChallengeAgreement
import PrivacyPass.Proof.Moq.Builder

/-
This file proves when the relay grants an action, over every run and against forged challenges.
-/

namespace PrivacyPass.Moq

open Library Crypto
open TokenAuthenticator (trustedKeys redemptions redeemAllowed)

namespace MoqRelay

section Steps

variable [CryptoBackend] {relay : MoqRelay} {now : Nat} {token : Token} {challenge : TokenChallenge}
  {action : Action} {ns : Namespace} {track : TrackName}

/-- The token was redeemed, whatever came of its scope. -/
def MoqVerificationResult.spent (result : MoqVerificationResult) : Bool :=
  decide (result.errorCode ≠ some .tokenInvalid ∧ result.errorCode ≠ some .tokenReplayed)

omit [CryptoBackend] in
theorem readAuthInfo_eq_ok {info : AuthorizationInfo} : readAuthInfo challenge = .ok info ↔
    ∃ first rest, challenge.originInfo = first :: rest ∧
      AuthorizationInfo.decodeFromOriginInfo first = .ok info := by
  unfold readAuthInfo
  cases challenge.originInfo with
  | nil => simp
  | cons first rest =>
      cases decoded : AuthorizationInfo.decodeFromOriginInfo first with
      | error error => simp [decoded]
      | ok other => simp [decoded]

omit [CryptoBackend] in
/-- A challenge that cannot be read is malformed. -/
theorem readAuthInfo_error {failure : MoqVerificationResult} (failed : readAuthInfo challenge = .error failure) :
    failure.valid = false ∧ failure.errorCode = some .tokenMalformed := by
  unfold readAuthInfo at failed
  split at failed
  · cases failed
    exact ⟨rfl, rfl⟩
  · split at failed
    · cases failed
      exact ⟨rfl, rfl⟩
    · cases failed

/-- The challenge of the relay starts with the text of the required info. -/
theorem createChallenge_eq (relay : MoqRelay) (required : AuthorizationInfo) :
    relay.createChallenge required = .ok (.create .blindRsa relay.authenticator.config.issuerName none
      (Base64Url.encode required.wire :: relay.authenticator.config.originNames)) := by
  rw [createChallenge, Result.bind_ok required.encodeForOriginInfo_eq]
  rfl

/-- The relay moves as its authenticator redeems. -/
theorem verifyAndAuthorize_authenticator :
    (relay.verifyAndAuthorize now token challenge action ns track).2 =
      { relay with authenticator := (relay.authenticator.validateAndRedeem now token challenge).2 } := by
  unfold verifyAndAuthorize
  dsimp only
  split
  · rfl
  split
  · rfl
  split <;> rfl

/-- The answer tells whether the token was redeemed. -/
theorem verifyAndAuthorize_spent :
    MoqVerificationResult.spent (relay.verifyAndAuthorize now token challenge action ns track).1 =
      (relay.authenticator.validateAndRedeem now token challenge).1.valid := by
  unfold verifyAndAuthorize
  dsimp only
  split
  · next invalid =>
      rw [invalid]
      split <;> rfl
  · next valid =>
      rw [Bool.not_eq_false] at valid
      rw [valid]
      split
      · next failure failed =>
          simp [MoqVerificationResult.spent, (readAuthInfo_error failed).2]
      · split <;> rfl

/-- A redeemed token is granted the action exactly when the first entry of its challenge authorizes it. -/
theorem verifyAndAuthorize_valid :
    (relay.verifyAndAuthorize now token challenge action ns track).1.valid = true ↔
      (relay.authenticator.validateAndRedeem now token challenge).1.valid = true ∧
      ∃ info first rest, challenge.originInfo = first :: rest ∧
        AuthorizationInfo.decodeFromOriginInfo first = .ok info ∧
        info.authorizes action ns track = true ∧
        (relay.verifyAndAuthorize now token challenge action ns track).1 = .success info := by
  unfold verifyAndAuthorize
  dsimp only
  split
  · next invalid => simp [invalid, MoqVerificationResult.failure]
  · next valid =>
      rw [Bool.not_eq_false] at valid
      cases read : readAuthInfo challenge with
      | error failure =>
          have unread : ∀ info first rest, challenge.originInfo = first :: rest →
              AuthorizationInfo.decodeFromOriginInfo first ≠ .ok info := by
            intro info first rest found decoded
            have readable := readAuthInfo_eq_ok.mpr ⟨first, rest, found, decoded⟩
            rw [read] at readable
            cases readable
          simp only [(readAuthInfo_error read).1, Bool.false_eq_true, false_iff]
          rintro ⟨-, info, first, rest, found, decoded, -⟩
          exact unread info first rest found decoded
      | ok info =>
          obtain ⟨first, rest, found, decoded⟩ := readAuthInfo_eq_ok.mp read
          dsimp only
          split
          · next refused =>
              simp only [MoqVerificationResult.failure, Bool.false_eq_true, false_iff]
              rintro ⟨-, other, head, tail, same, again, authorizes, -⟩
              obtain ⟨rfl, rfl⟩ := List.cons.inj (found.symm.trans same)
              obtain rfl := Except.ok.inj (decoded.symm.trans again)
              rw [refused] at authorizes
              cases authorizes
          · next authorized =>
              rw [Bool.not_eq_false] at authorized
              exact ⟨fun _ => ⟨valid, info, first, rest, found, decoded, authorized, rfl⟩, fun _ => rfl⟩

end Steps

section Runs

variable [CryptoBackend]

/-- The keys that were added, in their order. -/
def addedKeys (history : List ((Nat × Call) × Answer)) : List BlindRsaPublicKey :=
  history.filterMap fun event =>
    match event.1.2 with
    | .addTrustedIssuer key => some key
    | _ => none

/-- The redemption of a token, also where its scope did not allow the action. -/
def spending : (Nat × Call) × Answer → Option NonceEntry
  | ((now, .verifyAndAuthorize token _ _ _ _), .result result) =>
      if MoqVerificationResult.spent result = true then some ⟨token.nonce, now⟩ else none
  | _ => none

def spendings (history : List ((Nat × Call) × Answer)) : List NonceEntry := history.filterMap spending

/-- The history of the authenticator repeats the keys, the redemptions and the times of the relay's. -/
structure Drives (history : List ((Nat × Call) × Answer))
    (inner : List ((Nat × TokenAuthenticator.Call) × TokenAuthenticator.Answer)) : Prop where
  keys : trustedKeys inner = addedKeys history
  spends : redemptions inner = spendings history
  times : ∀ now, (∀ past ∈ history, past.1.1 ≤ now) → ∀ past ∈ inner, past.1.1 ≤ now

variable {relayName issuerName : Bytes} {history : List ((Nat × Call) × Answer)} {relay : MoqRelay}

/-- An event without a call of the authenticator adds no key and redeems no token. -/
theorem Drives.idle {inner : List ((Nat × TokenAuthenticator.Call) × TokenAuthenticator.Answer)}
    (drives : Drives history inner) {event : (Nat × Call) × Answer} (key : addedKeys [event] = [])
    (unspent : spendings [event] = []) : Drives (history ++ [event]) inner where
  keys := by rw [drives.keys, addedKeys, addedKeys, List.filterMap_append, ← addedKeys, ← addedKeys, key,
    List.append_nil]
  spends := by rw [drives.spends, spendings, spendings, List.filterMap_append, ← spendings, ← spendings,
    unspent, List.append_nil]
  times now bound := drives.times now fun past member => bound past (List.mem_append_left _ member)

/-- An event with a call of the authenticator adds its key and redeems its token. -/
theorem Drives.call {inner : List ((Nat × TokenAuthenticator.Call) × TokenAuthenticator.Answer)}
    (drives : Drives history inner) {event : (Nat × Call) × Answer}
    {call : (Nat × TokenAuthenticator.Call) × TokenAuthenticator.Answer}
    (key : trustedKeys [call] = addedKeys [event]) (spent : redemptions [call] = spendings [event])
    (time : call.1.1 = event.1.1) : Drives (history ++ [event]) (inner ++ [call]) where
  keys := by
    rw [trustedKeys, addedKeys, List.filterMap_append, List.filterMap_append, ← trustedKeys,
      ← trustedKeys, ← addedKeys, ← addedKeys, drives.keys, key]
  spends := by
    rw [redemptions, spendings, List.filterMap_append, List.filterMap_append, ← redemptions,
      ← redemptions, ← spendings, ← spendings, drives.spends, spent]
  times now bound past member := by
    rcases List.mem_append.mp member with inside | last
    · exact drives.times now (fun past member => bound past (List.mem_append_left _ member)) past inside
    · rw [List.mem_singleton.mp last, time]
      exact bound event (List.mem_append_right _ (List.mem_singleton.mpr rfl))

/-- The relay drives its authenticator. -/
theorem runs_authenticator (runs : machine.Runs Machine.clocked (create relayName issuerName) history relay) :
    ∃ inner, Drives history inner ∧ TokenAuthenticator.machine.Runs redeemAllowed
      (.create (config relayName issuerName)) inner relay.authenticator := by
  refine runs.drive MoqRelay.authenticator ⟨rfl, rfl, by simp⟩ ?_
  rintro history inner relay ⟨tick, call⟩ - legal drives
  have times : ∀ past ∈ inner, past.1.1 ≤ tick := drives.times tick legal
  cases call with
  | addTrustedIssuer key =>
      exact .inr ⟨(tick, .addTrustedKey relay.issuerName key), ⟨times, by simp⟩, rfl,
        drives.call rfl rfl rfl⟩
  | createChallenge requiredAuth => exact .inl ⟨rfl, drives.idle rfl rfl⟩
  | verifyToken token challenge => exact .inl ⟨rfl, drives.idle rfl rfl⟩
  | verifyAndAuthorize token challenge action ns track =>
      refine .inr ⟨(tick, .validateAndRedeem token challenge), ⟨times, by simp⟩, ?_, drives.call rfl ?_ rfl⟩
      · exact congrArg MoqRelay.authenticator verifyAndAuthorize_authenticator
      · simp only [redemptions, spendings, List.filterMap_cons, List.filterMap_nil, machine,
          TokenAuthenticator.machine, spending, TokenAuthenticator.redemption, verifyAndAuthorize_spent]

/-- The public origin that holds the copies of the copies of the added keys. -/
def reference (relayName issuerName : Bytes) (history : List ((Nat × Call) × Answer)) : PublicOrigin :=
  .create (TokenAuthenticator.create (config relayName issuerName)).origin.config
    (Origin.copiedKeys (Origin.copiedKeys (addedKeys history)))

/-- A redemption succeeds exactly when its nonce is not remembered and the checks succeed. -/
theorem validateAndRedeem_valid_iff {authenticator : TokenAuthenticator} {now : Nat} {token : Token}
    {challenge : TokenChallenge} :
    (authenticator.validateAndRedeem now token challenge).1.valid = true ↔
      token.nonce ∉ authenticator.cache.redeemedNonces ∧
        (authenticator.check token challenge).valid = true := by
  constructor
  · intro valid
    exact ⟨(TokenAuthenticator.validateAndRedeem_valid valid).1,
      TokenAuthenticator.check_of_validateAndRedeem valid⟩
  · intro ⟨fresh, checked⟩
    rw [TokenAuthenticator.validateAndRedeem, if_neg fresh]
    dsimp only
    rw [if_neg (by simp [checked]),
      if_neg (by simp [(TokenAuthenticator.checkAndAddNonce_fresh fresh now).1])]
    exact checked

omit [CryptoBackend] in
/-- The window of an hour fits the count of the clock. -/
theorem window_fits (relayName issuerName : Bytes) :
    NonceCache.WindowFits (config relayName issuerName).replayWindow :=
  (by decide : NonceCache.WindowFits 3600)

/-- The relay accepts the tokens of its added keys, and its cache holds spent nonces. -/
theorem authenticator_of_runs
    (runs : machine.Runs Machine.clocked (create relayName issuerName) history relay) :
    (∀ token challenge, (relay.authenticator.check token challenge).valid = true ↔
      (reference relayName issuerName history).verify token challenge = .ok true) ∧
    ∀ now, (∀ past ∈ history, past.1.1 ≤ now) → NonceCache.Remembers 3600 100000 now
      (spendings history) relay.authenticator.cache := by
  obtain ⟨inner, drives, driven⟩ := runs_authenticator runs
  constructor
  · intro token challenge
    rw [TokenAuthenticator.check_of_runs driven, TokenAuthenticator.reference, drives.keys]
    rfl
  · intro now clocked
    have remembers := driven.invariant (TokenAuthenticator.remembers_create _)
      fun _ _ _ remembers legal => remembers.step (window_fits relayName issuerName) legal
    rw [← drives.spends]
    exact remembers.cache now (drives.times now clocked)

/-- A nonce that was not spent is not remembered. -/
theorem fresh_of_runs (runs : machine.Runs Machine.clocked (create relayName issuerName) history relay)
    {nonce : Nonce} (unspent : nonce ∉ (spendings history).map NonceEntry.nonce) :
    nonce ∉ relay.authenticator.cache.redeemedNonces := by
  obtain ⟨latest, clocked⟩ := Machine.exists_latest history
  obtain ⟨coherent, dropped, split, -⟩ := (authenticator_of_runs runs).2 latest clocked
  rw [coherent.listed, NonceCache.nonces, List.mem_toFinset]
  intro member
  rw [split, List.map_append] at unspent
  exact unspent (List.mem_append_right _ member)

/-- A token of an added key that was not spent before is granted what its challenge authorizes. -/
theorem verifyAndAuthorize_fresh
    (runs : machine.Runs Machine.clocked (create relayName issuerName) history relay) {token : Token}
    {challenge : TokenChallenge} (unspent : token.nonce ∉ (spendings history).map NonceEntry.nonce)
    (verified : (reference relayName issuerName history).verify token challenge = .ok true)
    {first : Bytes} {rest : List Bytes} (found : challenge.originInfo = first :: rest)
    {info : AuthorizationInfo} (decoded : AuthorizationInfo.decodeFromOriginInfo first = .ok info)
    (tick : Nat) (action : Action) (ns : Namespace) (track : TrackName) :
    (relay.verifyAndAuthorize tick token challenge action ns track).1 =
      if info.authorizes action ns track = true then .success info
      else .failure .scopeMismatch ("Token does not authorize " ++ actionName action) := by
  have checked := ((authenticator_of_runs runs).1 token challenge).mpr verified
  have valid : (relay.authenticator.validateAndRedeem tick token challenge).1.valid = true :=
    validateAndRedeem_valid_iff.mpr ⟨fresh_of_runs runs unspent, checked⟩
  unfold verifyAndAuthorize
  dsimp only
  rw [if_neg (by simp [valid]), readAuthInfo_eq_ok.mpr ⟨first, rest, found, decoded⟩]
  dsimp only
  cases info.authorizes action ns track <;> rfl

/-- Over every run the relay grants an action only to a token of a key that was added, for a challenge
whose first entry authorizes the action; it answers a token that was not spent by its challenge; and
two tokens with one nonce are spent more than an hour or many other nonces apart. -/
theorem grants_of_runs (runs : machine.Runs Machine.clocked (create relayName issuerName) history relay) :
    (∀ before after tick token challenge action ns track result,
      history = before ++ ((tick, .verifyAndAuthorize token challenge action ns track), .result result) ::
        after → result.valid = true →
      (reference relayName issuerName before).verify token challenge = .ok true ∧
      ∃ info first rest, challenge.originInfo = first :: rest ∧
        AuthorizationInfo.decodeFromOriginInfo first = .ok info ∧
        info.authorizes action ns track = true ∧ result = .success info) ∧
    (∀ token challenge first rest info,
      token.nonce ∉ (spendings history).map NonceEntry.nonce →
      (reference relayName issuerName history).verify token challenge = .ok true →
      challenge.originInfo = first :: rest → AuthorizationInfo.decodeFromOriginInfo first = .ok info →
      ∀ tick action ns track, (relay.verifyAndAuthorize tick token challenge action ns track).1 =
        if info.authorizes action ns track = true then .success info
        else .failure .scopeMismatch ("Token does not authorize " ++ actionName action)) ∧
    ∀ before left between right after,
      history = before ++ left :: (between ++ right :: after) →
      ∀ entry ∈ spending left, ∀ other ∈ spending right, entry.nonce = other.nonce →
        3600 * nanosPerSecond < (other.timestamp : Int) - entry.timestamp ∨
          100000 ≤ ((NonceCache.nonces (spendings between)).erase entry.nonce).card := by
  refine ⟨?_, ?_, ?_⟩
  · intro before after tick token challenge action ns track result whole granted
    rw [whole] at runs
    obtain ⟨middle, earlier, -, answered, -⟩ := runs.split
    have same : result = (middle.verifyAndAuthorize tick token challenge action ns track).1 :=
      Answer.result.inj answered
    rw [same] at granted ⊢
    obtain ⟨redeemed, info, first, rest, found, decoded, authorized, success⟩ :=
      verifyAndAuthorize_valid.mp granted
    have checked := (validateAndRedeem_valid_iff.mp redeemed).2
    exact ⟨((authenticator_of_runs earlier).1 token challenge).mp checked, info, first, rest, found,
      decoded, authorized, success⟩
  · intro token challenge first rest info unspent verified found decoded tick action ns track
    exact verifyAndAuthorize_fresh runs unspent verified found decoded tick action ns track
  · intro before left between right after whole entry spent other again same
    rw [whole, ← List.cons_append, ← List.append_assoc] at runs
    obtain ⟨middle, earlier, clocked, answered, -⟩ := runs.split
    have split : spendings (before ++ left :: between) =
        spendings before ++ entry :: spendings between := by
      rw [spendings, List.filterMap_append, List.filterMap_cons, spent]
      rfl
    rcases right with ⟨⟨tick, call⟩, answer⟩
    cases call with
    | verifyAndAuthorize token challenge action ns track =>
        change answer = _ at answered
        rw [answered] at again
        obtain ⟨redeemed, made⟩ := Option.ite_none_right_eq_some.mp again
        rw [verifyAndAuthorize_spent] at redeemed
        obtain rfl := Option.some.inj made
        have absent : entry.nonce ∉ middle.authenticator.cache.redeemedNonces := by
          rw [same]
          exact (validateAndRedeem_valid_iff.mp redeemed).1
        have forgotten := ((authenticator_of_runs earlier).2 tick clocked).forgotten_of_notMem split absent
        rcases forgotten with expired | followed
        · exact .inl (by dsimp only; omega)
        · exact .inr followed
    | _ => cases again

end Runs

section Instances

open MultiKeyIssuer (sharedBackend sharedSha256 sharedRsaKey sharedRsaKey_copied sharedTokenOf
  sharedTokenOf_verified)

def publisherInfo : AuthorizationInfo := .forPublisher [[0x61]]

def publisherChallenge : TokenChallenge :=
  .create .blindRsa [0x69] none [Base64Url.encode publisherInfo.wire, [0x72]]

theorem publisherInfo_encodable : publisherInfo.Encodable := by
  refine AuthorizationInfo.encodable_single.mpr ⟨⟨by decide, ?_⟩, by decide⟩
  rintro rule ⟨⟩
  decide

def publisherDigest : ChallengeDigest := totalHash 32 sharedSha256 (TokenChallenge.wire
  TokenType.blindRsa.value [0x69] none (Base64Url.encode publisherInfo.wire ++ [0x2c, 0x72]))

theorem publisherChallenge_digest :
    (@TokenChallenge.digest sharedBackend.toHashBackend publisherChallenge).1 = .ok publisherDigest := by
  decide +kernel

/-- A publisher is challenged by a relay with one key. -/
def challengedHistory (n : Nat) : List ((Nat × Call) × Answer) :=
  [((0, .addTrustedIssuer (sharedRsaKey n)), .done),
    ((0, .createChallenge publisherInfo), .challenge (.ok publisherChallenge))]

abbrev publisherToken (n d : Nat) : Token := sharedTokenOf publisherDigest n d

/-- The publisher publishes with its token. -/
def publishingHistory (n d : Nat) : List ((Nat × Call) × Answer) :=
  challengedHistory n ++
    [((1, .verifyAndAuthorize (publisherToken n d) publisherChallenge .publish [[0x61]] [0x76]),
      .result (.success publisherInfo))]

abbrev sharedRelay (n : Nat) : @MoqRelay sharedBackend.toCryptoBackend :=
  @addTrustedIssuer sharedBackend.toCryptoBackend (@create sharedBackend.toCryptoBackend [0x72] [0x69])
    (sharedRsaKey n)

theorem challengedHistory_runs (n : Nat) : (@machine sharedBackend.toCryptoBackend).Runs Machine.clocked
    (@create sharedBackend.toCryptoBackend [0x72] [0x69]) (challengedHistory n) (sharedRelay n) := by
  have added := (Machine.Runs.start : (@machine sharedBackend.toCryptoBackend).Runs Machine.clocked
    (@create sharedBackend.toCryptoBackend [0x72] [0x69]) [] _).next (by simp [Machine.clocked])
      (rfl : (@machine sharedBackend.toCryptoBackend).step _ (0, .addTrustedIssuer (sharedRsaKey n)) =
        (.done, sharedRelay n))
  have asked : (@machine sharedBackend.toCryptoBackend).step (sharedRelay n)
      (0, .createChallenge publisherInfo) = (.challenge (.ok publisherChallenge), sharedRelay n) :=
    congrArg (fun result => (Answer.challenge result, sharedRelay n))
      (@createChallenge_eq sharedBackend.toCryptoBackend (sharedRelay n) publisherInfo)
  exact added.next (by simp [Machine.clocked]) asked

section Keys

variable {n d : Nat} (exponents : BlindSignature.RsaExponents n 65537 d) (bits : bnNumBits n = rsaBits)

include exponents bits

/-- The copies of the shared key are the key itself. -/
theorem sharedRsaKey_copies :
    @Origin.copiedKeys sharedBackend.toCryptoBackend [sharedRsaKey n] = [sharedRsaKey n] :=
  @Origin.copiedKeys_concat sharedBackend.toCryptoBackend [] _ _ (sharedRsaKey_copied exponents bits)

/-- The relay verifies with the one key. -/
theorem reference_shared {relayName issuerName : Bytes} {history : List ((Nat × Call) × Answer)}
    (added : addedKeys history = [sharedRsaKey n]) :
    ∃ config, @reference sharedBackend.toCryptoBackend relayName issuerName history =
      @PublicOrigin.create sharedBackend.toRsaBackend config [sharedRsaKey n] := by
  rw [@reference.eq_1 sharedBackend.toCryptoBackend, added, sharedRsaKey_copies exponents bits,
    sharedRsaKey_copies exponents bits]
  exact ⟨_, rfl⟩

theorem publisherToken_verified {relayName issuerName : Bytes} {history : List ((Nat × Call) × Answer)}
    (added : addedKeys history = [sharedRsaKey n]) :
    @PublicOrigin.verify sharedBackend.toRsaBackend
      (@reference sharedBackend.toCryptoBackend relayName issuerName history) (publisherToken n d)
      publisherChallenge = .ok true := by
  obtain ⟨config, same⟩ := reference_shared exponents bits added
  rw [same]
  exact sharedTokenOf_verified publisherChallenge_digest exponents bits config

/-- The relay grants the publisher its action. -/
theorem sharedRelay_grants : (@verifyAndAuthorize sharedBackend.toCryptoBackend (sharedRelay n) 1
    (publisherToken n d) publisherChallenge .publish [[0x61]] [0x76]).1 = .success publisherInfo := by
  have verified := @publisherToken_verified _ _ exponents bits [0x72] [0x69] (challengedHistory n) rfl
  have granted := @verifyAndAuthorize_fresh sharedBackend.toCryptoBackend _ _ _ _
    (challengedHistory_runs n) (publisherToken n d) publisherChallenge
    (by simp [challengedHistory, spendings, spending]) verified _ _ rfl _
    (AuthorizationInfo.decodeFromOriginInfo_encode publisherInfo_encodable) 1 .publish [[0x61]] [0x76]
  rw [granted, if_pos (by decide)]

theorem publishingHistory_runs : (@machine sharedBackend.toCryptoBackend).Runs Machine.clocked
    (@create sharedBackend.toCryptoBackend [0x72] [0x69]) (publishingHistory n d)
    (@verifyAndAuthorize sharedBackend.toCryptoBackend (sharedRelay n) 1 (publisherToken n d)
      publisherChallenge .publish [[0x61]] [0x76]).2 := by
  refine (challengedHistory_runs n).next (by simp [challengedHistory, Machine.clocked]) ?_
  exact Prod.ext (congrArg Answer.result (sharedRelay_grants exponents bits)) rfl

end Keys

/-- The grant of the run was for a verified token with the info of its challenge. -/
theorem grants_of_runs_publisher :
    @PublicOrigin.verify sharedBackend.toRsaBackend
      (@reference sharedBackend.toCryptoBackend [0x72] [0x69] (challengedHistory recordedModulus))
      (publisherToken recordedModulus recordedExponent) publisherChallenge = .ok true ∧
    AuthorizationInfo.decodeFromOriginInfo (Base64Url.encode publisherInfo.wire) = .ok publisherInfo := by
  obtain ⟨grants, -, -⟩ := @grants_of_runs sharedBackend.toCryptoBackend _ _ _ _
    (publishingHistory_runs recorded_exponents recordedModulus_bits)
  obtain ⟨verified, info, first, rest, found, decoded, -, success⟩ :=
    grants (challengedHistory recordedModulus) [] 1 (publisherToken recordedModulus recordedExponent)
      publisherChallenge .publish [[0x61]] [0x76] _ rfl rfl
  obtain ⟨rfl, rfl⟩ := List.cons.inj found
  cases success
  exact ⟨verified, decoded⟩

end Instances

end MoqRelay
end PrivacyPass.Moq
