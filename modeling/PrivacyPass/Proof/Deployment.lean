import PrivacyPass.Construction.Deployment
import PrivacyPass.Proof.Origin.Redemptions
import PrivacyPass.Proof.UnifiedClient

/-
This file proves what holds of the deployment whatever the network delivers.
-/

namespace PrivacyPass.Deployment

open Library Crypto Http

variable {κ : Type}

/-- A client asks with its draws, the header that it answers and the request that it sends. -/
structure Ask where
  draws : ProviderDraws
  wwwAuthenticate : Bytes
  request : Bytes

/-- The request that an event makes this client send. -/
def asks [DecidableEq κ] (client : κ) : (Nat × Delivery κ) × Answer → Option Ask
  | ((_, .challenge asker draws wwwAuthenticate), .sent (.ok bytes)) =>
      if asker = client then some ⟨draws, wwwAuthenticate, bytes⟩ else none
  | _ => none

/-- A request is open at the client from the moment it is sent, and a response that can be read closes
it. -/
def pending [DecidableEq κ] (client : κ) (type : TokenType) :
    (Nat × Delivery κ) × Answer → Option (Option Ask)
  | ((_, .response receiver bytes), _) =>
      if receiver = client ∧ (TokenResponse.deserialize type bytes).isOk = true then some none else none
  | event => (asks client event).map some

/-- The last request of the client, unless a response has closed it. -/
def openRequest [DecidableEq κ] (clientKey : κ → PublicKey) (client : κ)
    (history : List ((Nat × Delivery κ) × Answer)) : Option Ask :=
  (Machine.lastWrite (pending client (clientKey client).type) history).join

/-- The nonce that a delivery presents to the origin. -/
def Delivery.presented : Delivery κ → Option Nonce
  | .authorization bytes _ => (parseAuthorization bytes).toOption.map Token.nonce
  | .origin call => call.presented
  | _ => none

def Answer.value : Answer → Option (Result Bool)
  | .origin answer => answer.value
  | _ => none

/-- A delivery to the origin is a call of the origin. -/
def originEvent : (Nat × Delivery κ) × Answer → Option ((Nat × PublicOrigin.Call) × PublicOrigin.Answer)
  | ((tick, .authorization bytes challenge), .origin answer) =>
      (parseAuthorization bytes).toOption.map fun token =>
        ((tick, .verifyAndRedeem token challenge), answer)
  | ((tick, .origin call), .origin answer) => some ((tick, call), answer)
  | _ => none

/-- The calls that have reached the origin. -/
def originCalls (history : List ((Nat × Delivery κ) × Answer)) :
    List ((Nat × PublicOrigin.Call) × PublicOrigin.Answer) := history.filterMap originEvent

/-- The token and the challenge of a redemption that the origin accepts. -/
def accepts : (Nat × Delivery κ) × Answer → Option (Token × TokenChallenge)
  | ((_, .authorization bytes challenge), .origin (.result (.ok true))) =>
      (parseAuthorization bytes).toOption.map fun token => (token, challenge)
  | ((_, .origin (.verifyAndRedeem token challenge)), .origin (.result (.ok true))) =>
      some (token, challenge)
  | _ => none

section Runs

variable [IssuanceBackend] [DecidableEq κ] {issuer : PublicIssuer} {clientKey : κ → PublicKey}
  {config : OriginConfig} {keys : List BlindRsaPublicKey}
  {allowed : List ((Nat × Delivery κ) × Answer) → Nat × Delivery κ → Prop}
  {history : List ((Nat × Delivery κ) × Answer)} {initial deployment : Deployment κ}

/-- The origin of the deployment is driven by its own calls. -/
theorem runs_origin (runs : (machine issuer clientKey).Runs allowed initial history deployment) :
    PublicOrigin.machine.Runs (fun _ _ => True) initial.origin (originCalls history)
      deployment.origin := by
  refine runs.project Deployment.origin originEvent ?_ ?_
  · rintro history state ⟨tick, delivery⟩ legal seen found
    refine ⟨trivial, ?_⟩
    cases delivery with
    | challenge client draws wwwAuthenticate =>
        simp only [machine] at found
        split at found <;> cases found
    | request bytes => cases found
    | response client bytes =>
        simp only [machine] at found
        split at found <;> cases found
    | authorization bytes challenge =>
        simp only [machine] at found ⊢
        split at found
        · next error failed =>
            rw [originEvent, failed] at found
            cases found
        · next token parsed =>
            rw [originEvent, parsed] at found
            cases found
            rfl
    | origin call =>
        cases found
        rfl
  · rintro history state ⟨tick, delivery⟩ legal hidden
    cases delivery with
    | challenge client draws wwwAuthenticate =>
        simp only [machine]
        split <;> rfl
    | request bytes => rfl
    | response client bytes =>
        simp only [machine]
        split <;> rfl
    | authorization bytes challenge =>
        simp only [machine] at hidden ⊢
        split at hidden
        · rfl
        · next token parsed =>
            rw [originEvent, parsed] at hidden
            cases hidden
    | origin call => cases hidden

theorem machine_redeems : Redeems (machine issuer clientKey)
    (fun deployment => deployment.origin.replayCache) Delivery.presented Answer.value := by
  constructor
  · intro deployment tick delivery nonce presented
    cases delivery with
    | challenge client draws wwwAuthenticate => cases presented
    | request bytes => cases presented
    | response client bytes => cases presented
    | authorization bytes challenge =>
        obtain ⟨token, parsed, rfl⟩ := Option.map_eq_some_iff.mp presented
        have parsed := Result.toOption_eq_some.mp parsed
        simp only [machine, parsed]
        exact PublicOrigin.machine_redeems.redeemed deployment.origin tick
          (.verifyAndRedeem token challenge) token.nonce rfl
    | origin call => exact PublicOrigin.machine_redeems.redeemed deployment.origin tick call nonce presented
  · intro deployment tick delivery presented
    cases delivery with
    | challenge client draws wwwAuthenticate =>
        simp only [machine]
        split <;> rfl
    | request bytes => rfl
    | response client bytes =>
        simp only [machine]
        split <;> rfl
    | authorization bytes challenge =>
        simp only [machine]
        split
        · rfl
        · next token parsed =>
            rw [Delivery.presented, parsed] at presented
            cases presented
    | origin call => exact PublicOrigin.machine_redeems.kept deployment.origin tick call presented

/-- The answer to a challenge is a request of the unified client for the decoded challenge. -/
theorem answerChallenge_eq_ok {key : PublicKey} {draws : ProviderDraws} {wwwAuthenticate bytes : Bytes}
    {data : FinalizationData} (answered : answerChallenge key draws wwwAuthenticate = .ok (bytes, data)) :
    ∃ header challenge result, ChallengeHeader.parse wwwAuthenticate = .ok header ∧
      header.decodeChallenge = .ok challenge ∧
      Client.createTokenRequest draws challenge key = .ok result ∧
      bytes = result.request.wire ∧ data = result.finalizationData := by
  obtain ⟨header, parsed, decoding⟩ := Result.bind_eq_ok.mp answered
  obtain ⟨challenge, decoded, creating⟩ := Result.bind_eq_ok.mp decoding
  obtain ⟨result, created, serializing⟩ := Result.bind_eq_ok.mp creating
  obtain ⟨written, serialized, made⟩ := Result.bind_eq_ok.mp serializing
  rw [TokenRequest.serialize_eq] at serialized
  obtain ⟨rfl, rfl⟩ := Prod.mk.inj (Except.ok.inj made)
  exact ⟨header, challenge, result, parsed, decoded, created, (Except.ok.inj serialized).symm, rfl⟩

/-- The finalization data of a request has the type of the key. -/
theorem answerChallenge_typed {key : PublicKey} {draws : ProviderDraws} {wwwAuthenticate bytes : Bytes}
    {data : FinalizationData} (answered : answerChallenge key draws wwwAuthenticate = .ok (bytes, data)) :
    data.tokenType = key.type := by
  obtain ⟨header, challenge, result, -, -, created, -, rfl⟩ := answerChallenge_eq_ok answered
  obtain ⟨same, ⟨-, rsaKey, -, made⟩ | ⟨-, voprfKey, made⟩⟩ := Client.createTokenRequest_eq_ok created
  · rw [← same]
    exact (PublicClient.createTokenRequest_data made).1
  · rw [← same]
    exact (TokenProvider.privateRequest_eq_ok made).2.1

omit [IssuanceBackend] in
/-- A sent request opens, and nothing else does. -/
theorem asks_of_pending (client : κ) (type : TokenType) (event : (Nat × Delivery κ) × Answer) :
    (pending client type event = none → asks client event = none) ∧
      ∀ ask, pending client type event = some (some ask) → asks client event = some ask := by
  rcases event with ⟨⟨tick, delivery⟩, answer⟩
  cases delivery <;> simp [pending, asks]

omit [IssuanceBackend] in
/-- An open request is the last one of the client. -/
theorem asks_of_open {client : κ} {ask : Ask} (still : openRequest clientKey client history = some ask) :
    Machine.lastWrite (asks client) history = some ask := by
  induction history using List.reverseRecOn with
  | nil => cases still
  | append_singleton history event ih =>
      obtain ⟨hidden, asked⟩ := asks_of_pending client (clientKey client).type event
      rw [openRequest, Machine.lastWrite_concat] at still
      rw [Machine.lastWrite_concat]
      cases found : pending client (clientKey client).type event with
      | none =>
          rw [found, Option.none_or] at still
          rw [hidden found, Option.none_or]
          exact ih still
      | some opened =>
          rw [found, Option.some_or, Option.join_some] at still
          rw [asked ask (found.trans (congrArg some still)), Option.some_or]

/-- The client keeps the finalization data of this request, or none. -/
def Keeps (key : PublicKey) (waiting : Option FinalizationData) : Option Ask → Prop
  | none => waiting = none
  | some ask => ∃ data, answerChallenge key ask.draws ask.wwwAuthenticate = .ok (ask.request, data) ∧
      waiting = some data

theorem Keeps.typed {key : PublicKey} {waiting : Option FinalizationData} {last : Option Ask}
    (keeps : Keeps key waiting last) : ∀ data ∈ waiting, data.tokenType = key.type := by
  rintro data rfl
  cases last with
  | none => cases keeps
  | some ask =>
      obtain ⟨other, answered, same⟩ := keeps
      obtain rfl := Option.some.inj same
      exact answerChallenge_typed answered

/-- A response that can be read takes the data of its client. -/
theorem waiting_response (deployment : Deployment κ) (tick : Nat) (receiver client : κ) (bytes : Bytes) :
    ((machine issuer clientKey).step deployment (tick, .response receiver bytes)).2.waiting client =
      if receiver = client then
        (deployment.waiting client).filter fun data =>
          !(TokenResponse.deserialize data.tokenType bytes).isOk
      else deployment.waiting client := by
  simp only [machine]
  split_ifs with same
  · subst same
    cases waits : deployment.waiting receiver with
    | none => exact waits
    | some data =>
        simp only [Function.update_self, Option.filter_some]
        cases TokenResponse.deserialize data.tokenType bytes <;> rfl
  · cases deployment.waiting receiver with
    | none => rfl
    | some data => exact Function.update_of_ne (Ne.symm same) _ _

/-- A client keeps the finalization data of its open request. -/
theorem waiting_of_runs
    (runs : (machine issuer clientKey).Runs allowed { origin := .create config keys } history deployment)
    (client : κ) :
    Keeps (clientKey client) (deployment.waiting client) (openRequest clientKey client history) := by
  refine @Machine.Runs.shows_lastWrite _ _ _ (machine issuer clientKey) allowed _ _ _ _ _
    (pending client (clientKey client).type)
    (fun last waiting => Keeps (clientKey client) waiting last.join)
    (fun deployment => deployment.waiting client) (show Keeps _ none none from rfl) ?_ ?_ runs
  · rintro history state ⟨tick, delivery⟩ legal shown opened found
    cases delivery with
    | challenge asker draws wwwAuthenticate =>
        simp only [machine] at found ⊢
        cases answered : answerChallenge (clientKey asker) draws wwwAuthenticate with
        | error error =>
            rw [answered] at found
            cases found
        | ok pair =>
            simp only [answered, pending, asks] at found ⊢
            split at found
            · next same =>
                cases found
                subst same
                exact ⟨pair.2, answered, Function.update_self _ _ _⟩
            · cases found
    | response receiver bytes =>
        simp only [pending, Option.ite_none_right_eq_some] at found
        obtain ⟨⟨same, read⟩, closed⟩ := found
        cases closed
        rw [waiting_response, if_pos same]
        apply Option.filter_eq_none_iff.mpr
        intro data waits
        rw [shown.typed data waits, read]
        exact Bool.false_ne_true
    | request bytes => cases found
    | authorization bytes challenge =>
        simp only [machine] at found
        split at found <;> cases found
    | origin call => cases found
  · rintro history state ⟨tick, delivery⟩ legal shown hidden
    cases delivery with
    | challenge asker draws wwwAuthenticate =>
        simp only [machine] at hidden ⊢
        cases answered : answerChallenge (clientKey asker) draws wwwAuthenticate with
        | error error => rfl
        | ok pair =>
            simp only [answered, pending, asks] at hidden ⊢
            split at hidden
            · cases hidden
            · next different => exact Function.update_of_ne (Ne.symm different) _ _
    | response receiver bytes =>
        simp only [pending, ite_eq_right_iff, reduceCtorEq, imp_false] at hidden
        rw [waiting_response]
        split_ifs with same
        · cases waits : state.waiting client with
          | none => rfl
          | some data =>
              rw [Option.filter_some, shown.typed data waits, if_pos]
              rw [Bool.not_eq_true']
              exact Bool.eq_false_of_not_eq_true fun read => hidden ⟨same, read⟩
        · rfl
    | request bytes => rfl
    | authorization bytes challenge =>
        simp only [machine]
        split <;> rfl
    | origin call => rfl

/-- An origin that holds the key of a certified token accepts it where its nonce is new. -/
theorem authorization_accepted
    (runs : (machine issuer clientKey).Runs allowed { origin := .create config keys } history deployment)
    {data : FinalizationData} {rsaKey key : BlindRsaPublicKey} {token : Token}
    (certified : Certified data rsaKey token)
    (typed : token.tokenType = .blindRsa ∨ token.tokenType = .partiallyBlindRsa)
    {authorization : Bytes} (parsed : parseAuthorization authorization = .ok token)
    (unpresented : token.nonce ∉ presentedNonces Delivery.presented history)
    (last : PublicOrigin.lastCallOn token.tokenKeyId
      (PublicOrigin.registered keys (originCalls history)) = some (.addIssuerKey key))
    (same : rsaKey.pkey = key.pkey) {expected : TokenChallenge}
    (digested : expected.digest.1 = .ok token.challengeDigest) (tick : Nat) :
    ((machine issuer clientKey).step deployment (tick, .authorization authorization expected)).1 =
      .origin (.result (.ok true)) := by
  have holds : deployment.origin.HoldsKey token.tokenKeyId key := by
    rw [← PublicOrigin.heldKey_eq_some, PublicOrigin.heldKey_of_runs (runs_origin runs),
      PublicOrigin.bind_key_eq_some]
    exact last
  have verified := certified.accepted typed digested holds same
  have empty : (PublicOrigin.create config keys).replayCache.allNonces = ∅ := by
    rw [PublicOrigin.create_replayCache]
    rfl
  have first := machine_redeems.first empty runs unpresented tick (deployment.origin.verify token expected)
  simp only [machine, parsed]
  rw [PublicOrigin.verifyAndRedeem_eq, first, verified]

/-- Whatever bytes a client is given for a response, the header that it sends carries a token that
answers its last request, verifies under its key and is accepted by the origin where its nonce is new
and the key is the one that was added last for its id. -/
theorem sent_authorization_sound
    (runs : (machine issuer clientKey).Runs allowed { origin := .create config keys } history deployment)
    {client : κ} {bytes authorization : Bytes} {tick : Nat}
    (sent : ((machine issuer clientKey).step deployment (tick, .response client bytes)).1 =
      .sent (.ok authorization)) :
    ∃ ask header challenge token rsaKey, Machine.lastWrite (asks client) history = some ask ∧
      ChallengeHeader.parse ask.wwwAuthenticate = .ok header ∧
      header.decodeChallenge = .ok challenge ∧ parseAuthorization authorization = .ok token ∧
      token.tokenType = challenge.tokenType ∧ ask.draws.nonce = some token.nonce ∧
      challenge.digest.1 = .ok token.challengeDigest ∧
      BlindRsaPublicKey.fromSpki (clientKey client).data = .ok rsaKey ∧
      rsaKey.keyId = .ok token.tokenKeyId ∧
      rsaKey.verify token.authenticatorInput.wire token.authenticator = .ok true ∧
      ∀ rest later, (machine issuer clientKey).Runs allowed { origin := .create config keys }
          (history ++ rest) later →
        token.nonce ∉ presentedNonces Delivery.presented (history ++ rest) →
        ∀ key, PublicOrigin.lastCallOn token.tokenKeyId (PublicOrigin.registered keys
          (originCalls (history ++ rest))) = some (.addIssuerKey key) → rsaKey.pkey = key.pkey →
        ∀ expected, expected.digest.1 = .ok token.challengeDigest → ∀ tick,
          ((machine issuer clientKey).step later (tick, .authorization authorization expected)).1 =
            .origin (.result (.ok true)) := by
  have kept := waiting_of_runs runs client
  simp only [machine] at sent
  split at sent
  · cases sent
  · next data waits =>
      cases found : openRequest clientKey client history with
      | none =>
          rw [found] at kept
          rw [show deployment.waiting client = none from kept] at waits
          cases waits
      | some ask =>
          rw [found] at kept
          rw [asks_of_open found]
          obtain ⟨other, answered, waiting⟩ := kept
          obtain rfl := Option.some.inj (waits.symm.trans waiting)
          obtain ⟨header, challenge, result, parsed, decoded, created, -, rfl⟩ :=
            answerChallenge_eq_ok answered
          have answer : answerResponse (clientKey client) result.finalizationData bytes =
            .ok authorization := by simpa using sent
          obtain ⟨response, -, finalizing⟩ := Result.bind_eq_ok.mp answer
          obtain ⟨token, finalized, building⟩ := Result.bind_eq_ok.mp finalizing
          obtain ⟨typed, same, drawn, digested, rsaKey, read, named, certified⟩ :=
            Client.finalize_sound created finalized
          obtain ⟨text, built, returned⟩ := certified.delivered typed
          obtain rfl := Except.ok.inj (built.symm.trans building)
          refine ⟨ask, header, challenge, token, rsaKey, rfl, parsed, decoded, returned, same, drawn,
            digested, read, named, certified.verified, ?_⟩
          intro rest later runs unpresented key last held expected expectedDigest tick
          exact authorization_accepted runs certified typed returned unpresented last held
            expectedDigest tick

/-- The challenge that a client decodes from the header of a deliverable one has its digest. -/
theorem digest_received (hashes : HashesSucceed) {expected challenge : TokenChallenge}
    {tokenKey wwwAuthenticate : Bytes} {maxAge : Option UInt32} {header : ChallengeHeader}
    (deliverable : expected.Deliverable) (coherent : expected.Coherent)
    (built : buildWwwAuthenticate expected tokenKey maxAge = .ok wwwAuthenticate)
    (parsed : ChallengeHeader.parse wwwAuthenticate = .ok header)
    (decoded : header.decodeChallenge = .ok challenge) : expected.digest.1 = challenge.digest.1 := by
  obtain ⟨bytes, nonempty, serialized, delivered, again⟩ := deliverable.deserialize
  obtain ⟨text, read, same, reads, decodes, -⟩ :=
    buildWwwAuthenticate_parse tokenKey maxAge serialized nonempty
  obtain rfl := Except.ok.inj (built.symm.trans same)
  obtain rfl := Except.ok.inj (parsed.symm.trans reads)
  rw [decoded, delivered] at decodes
  obtain rfl := Except.ok.inj decodes
  obtain ⟨digest, hashed⟩ := hashes.sha256 bytes
  have sha : sha256 bytes = .ok digest := by
    rw [sha256, hashed]
  have copied : expected.received.Coherent := TokenChallenge.coherent_create _ _ _ _
  rw [coherent.digest_eq serialized sha, copied.digest_eq again sha]

/-- Where all salts have their length, the salt of the last request has it. -/
theorem salted_of_lastWrite
    (runs : (machine issuer clientKey).Runs salted initial history deployment) {client : κ} {ask : Ask}
    (last : Machine.lastWrite (asks client) history = some ask) :
    ask.draws.salt.length = saltLength := by
  obtain ⟨event, member, asked⟩ := List.mem_filterMap.mp (List.mem_of_getLast? last)
  obtain ⟨before, after, rfl⟩ := List.append_of_mem member
  obtain ⟨-, -, legal, -, -⟩ := runs.split
  rcases event with ⟨⟨tick, delivery⟩, answer⟩
  unfold asks at asked
  split at asked
  · next asker draws wwwAuthenticate bytes same =>
      cases same
      split at asked
      · obtain rfl := Option.some.inj asked
        exact legal
      · cases asked
  · cases asked

/-- The issuer of the key answers each request of the client, and the client makes a certified token
of the answer. -/
theorem answerChallenge_answered (hashes : HashesSucceed) (pss : PssConforms) {secret issued : EvpPkey}
    {d : Nat} {spki : Bytes} {keyId : TokenKeyId} (pair : IssuerKeyPair secret issued d spki keyId)
    {key : PublicKey} (keyed : key.data = spki)
    (rsa : key.type = .blindRsa ∨ key.type = .partiallyBlindRsa) {draws : ProviderDraws}
    (salt : draws.salt.length = saltLength) {wwwAuthenticate bytes : Bytes} {data : FinalizationData}
    (answered : answerChallenge key draws wwwAuthenticate = .ok (bytes, data)) :
    ∃ response authorization token, answerRequest (.create ⟨some secret⟩) bytes = .ok response ∧
      answerResponse key data response = .ok authorization ∧
      parseAuthorization authorization = .ok token ∧
      (token.tokenType = .blindRsa ∨ token.tokenType = .partiallyBlindRsa) ∧
      draws.nonce = some token.nonce ∧ token.tokenKeyId = keyId ∧
      Certified data ⟨some issued, spki⟩ token ∧
      ∀ expected tokenKey maxAge, expected.Deliverable → expected.Coherent →
        buildWwwAuthenticate expected tokenKey maxAge = .ok wwwAuthenticate →
          expected.digest.1 = .ok token.challengeDigest := by
  obtain ⟨header, challenge, result, parsed, decoded, asked, rfl, rfl⟩ := answerChallenge_eq_ok answered
  obtain ⟨same, -⟩ := Client.createTokenRequest_eq_ok asked
  rw [← same] at rsa
  have read : BlindRsaPublicKey.fromSpki key.data = .ok ⟨some issued, spki⟩ := by
    rw [keyed]
    exact fromSpki_eq_ok.mpr ⟨pair.short, issued, pair.parsed, pair.valid, rfl⟩
  rw [Client.createTokenRequest_of_rsa rsa same read] at asked
  obtain ⟨typed, drawn, digested, named⟩ := PublicClient.createTokenRequest_data asked
  obtain ⟨requestSized, requested, signature, token, size, issues, accepted⟩ :=
    pair.answers hashes pss salt rsa rfl pair.keyId_eq asked
  obtain ⟨certified, finalized⟩ := accepted ⟨some issued, spki⟩ rfl
  have tokenTyped : token.tokenType = .blindRsa ∨ token.tokenType = .partiallyBlindRsa := by
    rwa [certified.typed, typed]
  obtain ⟨authorization, built, returned⟩ := certified.delivered tokenTyped
  refine ⟨signature, authorization, token, ?_, ?_, returned, tokenTyped, ?_, ?_, certified, ?_⟩
  · rw [answerRequest, Result.bind_ok (TokenRequest.deserialize_wire requestSized),
      Result.bind_ok issues]
    rfl
  · have responded : TokenResponse.deserialize result.finalizationData.tokenType signature =
        .ok ⟨result.finalizationData.tokenType, .blindRsa ⟨signature⟩⟩ := by
      rw [TokenResponse.deserialize, if_pos (by rwa [typed]),
        Result.bind_ok (BlindRsaTokenResponse.deserialize_sized size)]
    have unified : Client.finalize ⟨result.finalizationData.tokenType, .blindRsa ⟨signature⟩⟩
        result.finalizationData key = .ok token := by
      rw [Client.finalize, if_pos (by rwa [typed]), Result.bind_ok read]
      exact finalized _
    rw [answerResponse, Result.bind_ok responded, Result.bind_ok unified, built]
  · rw [drawn, certified.nonce]
  · rw [pair.keyId_eq] at named
    rw [certified.named, Except.ok.inj named]
  · intro expected tokenKey maxAge deliverable coherent built
    rw [certified.digest, ← digested]
    exact digest_received hashes deliverable coherent built parsed decoded

/-- In every run an open request of a client is answered by the issuer of its key, the client turns the
answer into a header, and the origin accepts the token in it against the challenge that the client has
answered, where the nonce is new and the key of the issuer was added last for its id. -/
theorem open_request_accepted (hashes : HashesSucceed) (pss : PssConforms) {secret issued : EvpPkey}
    {d : Nat} {spki : Bytes} {keyId : TokenKeyId} (pair : IssuerKeyPair secret issued d spki keyId)
    (runs : (machine (.create ⟨some secret⟩) clientKey).Runs salted { origin := .create config keys }
      history deployment)
    {client : κ} {ask : Ask} (still : openRequest clientKey client history = some ask)
    (keyed : (clientKey client).data = spki)
    (rsa : (clientKey client).type = .blindRsa ∨ (clientKey client).type = .partiallyBlindRsa) :
    ∃ response authorization token,
      (∀ tick, ((machine (.create ⟨some secret⟩) clientKey).step deployment
        (tick, .request ask.request)).1 = .sent (.ok response)) ∧
      (∀ tick, ((machine (.create ⟨some secret⟩) clientKey).step deployment
        (tick, .response client response)).1 = .sent (.ok authorization)) ∧
      parseAuthorization authorization = .ok token ∧ ask.draws.nonce = some token.nonce ∧
      token.tokenKeyId = keyId ∧
      ∀ rest later, (machine (.create ⟨some secret⟩) clientKey).Runs salted
          { origin := .create config keys } (history ++ rest) later →
        token.nonce ∉ presentedNonces Delivery.presented (history ++ rest) →
        ∀ key, PublicOrigin.lastCallOn keyId (PublicOrigin.registered keys
          (originCalls (history ++ rest))) = some (.addIssuerKey key) → key.pkey = some issued →
        ∀ expected tokenKey maxAge, expected.Deliverable → expected.Coherent →
          buildWwwAuthenticate expected tokenKey maxAge = .ok ask.wwwAuthenticate → ∀ tick,
          ((machine (.create ⟨some secret⟩) clientKey).step later
            (tick, .authorization authorization expected)).1 = .origin (.result (.ok true)) := by
  have kept := waiting_of_runs runs client
  rw [still] at kept
  obtain ⟨data, answered, waiting⟩ := kept
  have last := asks_of_open still
  obtain ⟨response, authorization, token, issues, finalizes, returned, typed, drawn, named, certified,
    digested⟩ := answerChallenge_answered hashes pss pair keyed rsa (salted_of_lastWrite runs last) answered
  refine ⟨response, authorization, token, ?_, ?_, returned, drawn, named, ?_⟩
  · intro tick
    exact congrArg Answer.sent issues
  · intro tick
    simp only [machine, waiting, finalizes]
  · intro rest later runs unpresented key added held expected tokenKey maxAge deliverable coherent built
      tick
    rw [← named] at added
    exact authorization_accepted runs certified typed returned unpresented added held.symm
      (digested expected tokenKey maxAge deliverable coherent built) tick

section Acceptance

omit [IssuanceBackend] [DecidableEq κ] in
/-- An acceptance is a redemption that answers with true. -/
theorem of_accepts {event : (Nat × Delivery κ) × Answer} {token : Token} {challenge : TokenChallenge}
    (accepted : accepts event = some (token, challenge)) :
    event.1.2.presented = some token.nonce ∧ event.2 = .origin (.result (.ok true)) ∧
      originEvent event = some ((event.1.1, .verifyAndRedeem token challenge), .result (.ok true)) := by
  unfold accepts at accepted
  split at accepted
  · next tick bytes expected =>
      obtain ⟨parsed, found, same⟩ := Option.map_eq_some_iff.mp accepted
      obtain ⟨rfl, rfl⟩ := Prod.mk.inj same
      refine ⟨?_, rfl, ?_⟩
      · rw [Delivery.presented, found]
        rfl
      · rw [originEvent, found]
        rfl
  · cases accepted
    exact ⟨rfl, rfl, rfl⟩
  · cases accepted

end Acceptance

/-- Over every interleaving of the deliveries an accepted token has the digest of its challenge and a
signature under the key that was added last for its id, and two acceptances of one nonce lie at least
the window apart while the replay cache has room for the presented nonces. -/
theorem acceptances_of_runs
    (runs : (machine issuer clientKey).Runs Machine.clocked { origin := .create config keys } history
      deployment) :
    (∀ before event after token challenge, history = before ++ event :: after →
      accepts event = some (token, challenge) →
      challenge.digest.1 = .ok token.challengeDigest ∧
      ∃ key, PublicOrigin.lastCallOn token.tokenKeyId
          (PublicOrigin.registered keys (originCalls before)) = some (.addIssuerKey key) ∧
        key.keyId = .ok token.tokenKeyId ∧
        key.verify token.authenticatorInput.wire token.authenticator = .ok true) ∧
    ((presentedNonces Delivery.presented history).toFinset.card ≤ config.maxReplayCacheSize →
      ∀ before left middle right after token other challenge expected,
        history = before ++ left :: (middle ++ right :: after) →
        accepts left = some (token, challenge) → accepts right = some (other, expected) →
        token.nonce = other.nonce →
        left.1.1 + (PublicOrigin.create config keys).replayCache.windowSeconds ≤ right.1.1) := by
  constructor
  · rintro before event after token challenge rfl accepted
    obtain ⟨-, -, call⟩ := of_accepts accepted
    have followed := runs_origin runs
    unfold originCalls at followed
    rw [List.filterMap_append, List.filterMap_cons, call] at followed
    obtain ⟨origin, earlier, -, answer, -⟩ := followed.split
    have redeemed : (origin.verifyAndRedeem event.1.1 token challenge).1 = .ok true :=
      (PublicOrigin.Answer.result.inj answer).symm
    rw [PublicOrigin.verifyAndRedeem_eq] at redeemed
    have verified := ReplayCache.of_redeem redeemed
    obtain ⟨-, -, digested, key, holds, signed⟩ := PublicOrigin.verify_eq_ok.mp verified
    rw [← PublicOrigin.heldKey_eq_some, PublicOrigin.heldKey_of_runs earlier,
      PublicOrigin.bind_key_eq_some] at holds
    refine ⟨digested, key, holds, ?_, ?_⟩
    · have named := PublicOrigin.subject_of_lastCallOn holds
      exact Result.toOption_eq_some.mp named
    · rwa [AuthenticatorInput.build_calls] at signed
  · rintro few before left middle right after token other challenge expected rfl leftAccepted
      rightAccepted same
    obtain ⟨leftNamed, leftAnswer, -⟩ := of_accepts leftAccepted
    obtain ⟨rightNamed, rightAnswer, -⟩ := of_accepts rightAccepted
    rcases left with ⟨⟨first, leftDelivery⟩, leftValue⟩
    rcases right with ⟨⟨second, rightDelivery⟩, rightValue⟩
    cases leftAnswer
    cases rightAnswer
    rw [same] at leftNamed
    apply machine_redeems.apart _ runs leftNamed rightNamed _ _ few
    · dsimp only
      rw [PublicOrigin.create_replayCache]
      rfl
    · simp [Answer.value, PublicOrigin.Answer.value]
    · simp [Answer.value, PublicOrigin.Answer.value]

end Runs

section Instances

open MultiKeyIssuer (sharedBackend sharedBackend_hashes sharedBackend_conforms sharedKeyId sharedKey_pair
  sharedRsaKey)
open TokenProvider (sharedPublicKey sharedProviderDraws sharedChallenge)

/-- One client and an origin share the key of a modulus. -/
abbrev sharedMachine (n d : Nat) : Machine (Deployment Unit) (Nat × Delivery Unit) Answer :=
  @machine sharedBackend Unit _ (@PublicIssuer.create sharedBackend.toRsaBackend ⟨some (pssKey n (some d))⟩)
    fun _ => sharedPublicKey .blindRsa n

abbrev sharedDeployment (n : Nat) : Deployment Unit where
  origin := @PublicOrigin.create sharedBackend.toRsaBackend zeroConfig [sharedRsaKey n]

/-- The client answers the header of the shared challenge. -/
theorem sharedDeployment_runs {n d : Nat} (exponents : BlindSignature.RsaExponents n 65537 d)
    (bits : bnNumBits n = rsaBits) : ∃ wwwAuthenticate request data,
      buildWwwAuthenticate (sharedChallenge .blindRsa) [] none = .ok wwwAuthenticate ∧
      @answerChallenge sharedBackend (sharedPublicKey .blindRsa n) sharedProviderDraws wwwAuthenticate =
        .ok (request, data) ∧
      ∀ allowed, allowed [] (0, .challenge () sharedProviderDraws wwwAuthenticate) →
        (sharedMachine n d).Runs allowed (sharedDeployment n)
          [((0, .challenge () sharedProviderDraws wwwAuthenticate), .sent (.ok request))]
          { sharedDeployment n with
            waiting := Function.update (fun _ => none) () (some data) } := by
  have deliverable : (sharedChallenge .blindRsa).Deliverable := pssChallenge_deliverable
  obtain ⟨bytes, nonempty, serialized, delivered, -⟩ := deliverable.deserialize
  obtain ⟨text, header, built, parsed, decoded, -⟩ :=
    buildWwwAuthenticate_parse [] none serialized nonempty
  rw [delivered] at decoded
  obtain ⟨result, response, created, -⟩ := Client.sharedKey_created exponents bits (.inl rfl)
  have answered : @answerChallenge sharedBackend (sharedPublicKey .blindRsa n) sharedProviderDraws text =
      .ok (result.request.wire, result.finalizationData) := by
    rw [@answerChallenge.eq_1 sharedBackend, Result.bind_ok parsed, Result.bind_ok decoded]
    refine (Result.bind_ok created).trans ?_
    rw [TokenRequest.serialize_eq]
    rfl
  refine ⟨text, _, _, built, answered, ?_⟩
  intro allowed legal
  apply Machine.Runs.next .start legal
  simp only [machine, answered]

/-- The origin of the shared deployment holds the shared key. -/
theorem sharedDeployment_registered {n d : Nat} (exponents : BlindSignature.RsaExponents n 65537 d)
    (bits : bnNumBits n = rsaBits) :
    @PublicOrigin.lastCallOn sharedBackend.toRsaBackend (sharedKeyId n)
      (PublicOrigin.registered [sharedRsaKey n] []) = some (.addIssuerKey (sharedRsaKey n)) := by
  have pair := sharedKey_pair exponents bits
  have named : @BlindRsaPublicKey.keyId sharedBackend.toRsaBackend (sharedRsaKey n) =
      .ok (sharedKeyId n) := @IssuerKeyPair.keyId_eq sharedBackend.toRsaBackend _ _ _ _ _ pair
  have subject : @PublicOrigin.Call.subject sharedBackend.toRsaBackend (.addIssuerKey (sharedRsaKey n)) =
      some (sharedKeyId n) := by
    rw [@PublicOrigin.Call.subject.eq_1 sharedBackend.toRsaBackend, named]
    rfl
  have appended := @PublicOrigin.lastCallOn_concat sharedBackend.toRsaBackend (sharedKeyId n) []
    (.addIssuerKey (sharedRsaKey n))
  rw [if_pos subject] at appended
  exact appended

/-- The token for the shared challenge is accepted. -/
theorem open_request_accepted_recorded : ∃ wwwAuthenticate request deployment authorization,
    (sharedMachine recordedModulus recordedExponent).Runs salted (sharedDeployment recordedModulus)
      [((0, .challenge () sharedProviderDraws wwwAuthenticate), .sent (.ok request))] deployment ∧
    ((sharedMachine recordedModulus recordedExponent).step deployment
      (1, .authorization authorization (sharedChallenge .blindRsa))).1 = .origin (.result (.ok true)) := by
  obtain ⟨text, request, data, built, -, runs⟩ :=
    sharedDeployment_runs recorded_exponents recordedModulus_bits
  have runs := runs salted List.length_replicate
  obtain ⟨response, authorization, token, -, -, -, -, -, accepted⟩ :=
    @open_request_accepted Unit sharedBackend _ _ _ _ _ _ sharedBackend_hashes sharedBackend_conforms _ _
      _ _ _ (sharedKey_pair recorded_exponents recordedModulus_bits) runs () ⟨_, text, request⟩ rfl rfl
      (.inl rfl)
  refine ⟨text, request, _, authorization, runs, ?_⟩
  exact accepted [] _ (by rwa [List.append_nil]) List.not_mem_nil (sharedRsaKey recordedModulus)
    (sharedDeployment_registered recorded_exponents recordedModulus_bits) rfl
    (sharedChallenge .blindRsa) [] none pssChallenge_deliverable
    (@TokenChallenge.coherent_create sharedBackend.toHashBackend _ _ _ _) built 1

/-- The client sends a token of the shared challenge for the response of the issuer. -/
theorem sent_authorization_sound_recorded : ∃ deployment response authorization token,
    ((sharedMachine recordedModulus recordedExponent).step deployment (1, .response () response)).1 =
      .sent (.ok authorization) ∧ parseAuthorization authorization = .ok token ∧
    sharedProviderDraws.nonce = some token.nonce := by
  obtain ⟨text, request, data, built, answered, runs⟩ :=
    sharedDeployment_runs recorded_exponents recordedModulus_bits
  have runs := runs (fun _ _ => True) trivial
  obtain ⟨response, authorization, token, -, finalizes, -⟩ :=
    @answerChallenge_answered sharedBackend sharedBackend_hashes sharedBackend_conforms _ _ _ _ _
      (sharedKey_pair recorded_exponents recordedModulus_bits) (sharedPublicKey .blindRsa recordedModulus)
      rfl (.inl rfl) sharedProviderDraws List.length_replicate _ _ _ answered
  have sent : ((sharedMachine recordedModulus recordedExponent).step
      { sharedDeployment recordedModulus with
        waiting := Function.update (fun _ => none) () (some data) } (1, .response () response)).1 =
      .sent (.ok authorization) := by
    simp only [machine, Function.update_self, finalizes]
  obtain ⟨ask, -, -, sound, -, asked, -, -, returned, -, drawn, -⟩ :=
    @sent_authorization_sound Unit sharedBackend _ _ _ _ _ _ _ _ runs () response authorization 1 sent
  refine ⟨_, response, authorization, sound, sent, returned, ?_⟩
  obtain rfl := Option.some.inj asked
  exact drawn

/-- The token of the shared challenge is accepted with the digest of the challenge, and it is not
accepted again one second later. -/
theorem acceptances_of_runs_recorded : ∃ history deployment authorization token,
    (sharedMachine recordedModulus recordedExponent).Runs Machine.clocked
      (sharedDeployment recordedModulus)
      (history ++ [((1, .authorization authorization (sharedChallenge .blindRsa)),
        .origin (.result (.ok true)))]) deployment ∧
    parseAuthorization authorization = .ok token ∧
    (@TokenChallenge.digest sharedBackend.toHashBackend (sharedChallenge .blindRsa)).1 =
      .ok token.challengeDigest ∧
    ((sharedMachine recordedModulus recordedExponent).step deployment
      (2, .authorization authorization (sharedChallenge .blindRsa))).1 ≠
        .origin (.result (.ok true)) := by
  obtain ⟨text, request, data, built, answered, runs⟩ :=
    sharedDeployment_runs recorded_exponents recordedModulus_bits
  have runs := runs Machine.clocked (by simp [Machine.clocked])
  obtain ⟨response, authorization, token, -, -, returned, typed, -, named, certified, digested⟩ :=
    @answerChallenge_answered sharedBackend sharedBackend_hashes sharedBackend_conforms _ _ _ _ _
      (sharedKey_pair recorded_exponents recordedModulus_bits) (sharedPublicKey .blindRsa recordedModulus)
      rfl (.inl rfl) sharedProviderDraws List.length_replicate _ _ _ answered
  have digested := digested (sharedChallenge .blindRsa) [] none pssChallenge_deliverable
    (@TokenChallenge.coherent_create sharedBackend.toHashBackend _ _ _ _) built
  have registered := sharedDeployment_registered recorded_exponents recordedModulus_bits
  rw [← named] at registered
  have accepted := @authorization_accepted Unit sharedBackend _ _ _ _ _ _ _ _ runs _ _
    (sharedRsaKey recordedModulus) _ certified typed _ returned List.not_mem_nil registered rfl _ digested 1
  have once := runs.step (1, .authorization authorization (sharedChallenge .blindRsa))
    (by simp [Machine.clocked])
  rw [accepted] at once
  obtain ⟨authentic, -⟩ := @acceptances_of_runs Unit sharedBackend _ _ _ _ _ _ _ once
  have counted (tick : Nat) : accepts (((tick, .authorization authorization (sharedChallenge .blindRsa)),
      .origin (.result (.ok true))) : (Nat × Delivery Unit) × Answer) =
        some (token, sharedChallenge .blindRsa) := by
    rw [accepts, returned]
    rfl
  refine ⟨_, _, authorization, token, once, returned, ?_, ?_⟩
  · exact (authentic _ _ [] token (sharedChallenge .blindRsa) rfl (counted 1)).1
  · intro again
    have twice := once.step (2, .authorization authorization (sharedChallenge .blindRsa))
      (by simp [Machine.clocked])
    rw [again] at twice
    obtain ⟨-, apart⟩ := @acceptances_of_runs Unit sharedBackend _ _ _ _ _ _ _ twice
    have later := apart ((List.toFinset_card_le _).trans ((List.length_filterMap_le _ _).trans
      (by simp [zeroConfig, defaultMaxReplayCacheSize]))) _ _ [] _ [] token token
      (sharedChallenge .blindRsa) (sharedChallenge .blindRsa) (List.append_assoc _ _ _) (counted 1)
      (counted 2) rfl
    rw [@PublicOrigin.create_replayCache sharedBackend.toRsaBackend] at later
    have short : 1 + (ReplayCache.create zeroConfig.redemptionWindow
        zeroConfig.maxReplayCacheSize).windowSeconds ≤ 2 := later
    exact absurd short (by decide)

end Instances

end PrivacyPass.Deployment
