import PrivacyPass.Construction.Issuer
import PrivacyPass.Proof.Wire.Batches

/-
This file proves which batches of issued responses survive the wire.
-/

namespace PrivacyPass

open Library Crypto

section Sizes

/-- A blind signature has the size of the modulus. -/
theorem blindSign_length {key : BlindRsaPrivateKey} {blindedMsg signature : Bytes}
    (success : key.blindSign blindedMsg = .ok signature) : signature.length = 256 := by
  unfold BlindRsaPrivateKey.blindSign at success
  split at success
  · cases success
  · split at success
    · cases success
    · split at success
      · cases success
      · dsimp only at success
        split at success
        · cases success
        · next size =>
            split at success
            · cases success
            · split at success
              · cases success
              · split at success
                · cases success
                · split at success
                  · cases success
                  · cases success
                    rw [BigEndian.toBytes_length]
                    exact not_not.mp size

/-- A padded number has the size of its field. -/
theorem bnBn2BinPad_length {number size : Nat} {bytes : Bytes}
    (success : bnBn2BinPad number size = some bytes) : bytes.length = size := by
  unfold bnBn2BinPad at success
  split at success
  · cases success
    exact BigEndian.toBytes_length _ _
  · cases success

variable [EcBackend]

/-- A proof holds two scalars. -/
theorem generateDleqProof_length {draws : List Nat} {k : Nat} {Y R Z : EcBackend.Point}
    {proof : Bytes} (success : generateDleqProof draws k Y R Z = .ok proof) : proof.length = 96 := by
  unfold generateDleqProof at success
  obtain ⟨⟨M, composite⟩, -, success⟩ := Result.bind_eq_ok.mp success
  dsimp only at success
  split at success
  · cases success
  · split at success
    · cases success
    · split at success
      · cases success
      · obtain ⟨c, -, success⟩ := Result.bind_eq_ok.mp success
        split at success
        · next cBytes sBytes first second =>
            cases success
            rw [List.length_append, bnBn2BinPad_length first, bnBn2BinPad_length second]
            rfl
        · cases success

/-- An evaluation is an encoded point and a proof of two scalars. -/
theorem blindEvaluate_ok {server : VoprfServer} {draws : List Nat} {blinded : Bytes}
    {evaluation : VoprfEvaluation} (success : server.blindEvaluate draws blinded = .ok evaluation) :
    (∃ Z, pointToBytes Z = .ok evaluation.evaluatedElement) ∧ evaluation.proof.length = 96 := by
  unfold VoprfServer.blindEvaluate at success
  split at success
  · cases success
  · split at success
    · cases success
    · obtain ⟨scalar, -, success⟩ := Result.bind_eq_ok.mp success
      dsimp only at success
      split at success
      · cases success
      · next Z multiplied =>
          obtain ⟨publicKey, -, success⟩ := Result.bind_eq_ok.mp success
          obtain ⟨bytes, -, success⟩ := Result.bind_eq_ok.mp success
          split at success
          · cases success
          · obtain ⟨proof, proved, success⟩ := Result.bind_eq_ok.mp success
            obtain ⟨element, encoded, success⟩ := Result.bind_eq_ok.mp success
            cases success
            exact ⟨⟨Z, encoded⟩, generateDleqProof_length proved⟩

end Sizes

/-- Each successful issuance of the public issuer answers an RSA request with a sized response. -/
theorem PublicIssuer.issue_ok [RsaBackend] {issuer : PublicIssuer} {request : TokenRequest}
    {response : TokenResponse} (success : issuer.issue request = .ok response) :
    (request.tokenType = .blindRsa ∨ request.tokenType = .partiallyBlindRsa) ∧
      response.Sized ∧ response.tokenType = .blindRsa := by
  unfold issue at success
  split at success
  · cases success
  · next typed =>
      split at success
      · cases success
      · obtain ⟨signature, signed, success⟩ := Result.bind_eq_ok.mp success
        cases success
        exact ⟨by tauto, ⟨.inl rfl, blindSign_length signed⟩, rfl⟩

/-- The crypto library encodes each element that the issuer evaluates in 49 bytes. -/
def PrivateIssuer.EvaluatesElements [EcBackend] (issuer : PrivateIssuer) : Prop :=
  ∀ server, issuer.server = some server → ∀ draws blinded evaluation,
    server.blindEvaluate draws blinded = .ok evaluation → evaluation.evaluatedElement.length = 49

/-- The request asks for a VOPRF evaluation under the issuer's key of an element that the server can
evaluate. -/
def PrivateIssuer.evaluable [EcBackend] (issuer : PrivateIssuer) (draws : List Nat)
    (request : TokenRequest) : Bool :=
  decide (request.tokenType = .voprfP384Sha384) &&
    decide (request.truncatedTokenKeyId = issuer.truncatedKeyId) &&
    match issuer.server with
    | none => false
    | some server => (server.blindEvaluate draws request.blindedMsg).isOk

/-- The private issuer issues exactly the evaluable requests. -/
theorem PrivateIssuer.issue_isOk [EcBackend] (issuer : PrivateIssuer) (draws : List Nat)
    (request : TokenRequest) : (issuer.issue draws request).isOk = issuer.evaluable draws request := by
  unfold issue evaluable
  split
  · next other =>
      rw [decide_eq_false other]
      rfl
  · next voprf =>
      rw [decide_eq_true (not_not.mp voprf), Bool.true_and]
      split
      · next other =>
          rw [decide_eq_false other]
          rfl
      · next known =>
          rw [decide_eq_true (not_not.mp known), Bool.true_and]
          cases issuer.server with
          | none => rfl
          | some server =>
              dsimp only
              cases server.blindEvaluate draws request.blindedMsg <;> rfl

/-- This is the number of evaluable requests, each with its own draws. -/
def PrivateIssuer.evaluableCount [EcBackend] (issuer : PrivateIssuer) (draws : Nat → List Nat)
    (requests : List TokenRequest) : Nat :=
  (requests.mapIdx fun index request => issuer.evaluable (draws index) request).count true

/-- Each successful issuance of the private issuer answers a VOPRF request with a sized response. -/
theorem PrivateIssuer.issue_ok [EcBackend] {issuer : PrivateIssuer} (elements : issuer.EvaluatesElements)
    {draws : List Nat} {request : TokenRequest} {response : TokenResponse}
    (success : issuer.issue draws request = .ok response) :
    response.Sized ∧ response.tokenType = .voprfP384Sha384 := by
  unfold issue at success
  split at success
  · cases success
  · split at success
    · cases success
    · split at success
      · cases success
      · next server present =>
          obtain ⟨evaluation, evaluated, success⟩ := Result.bind_eq_ok.mp success
          cases success
          exact ⟨⟨rfl, elements server present draws _ evaluation evaluated,
            (blindEvaluate_ok evaluated).2⟩, rfl⟩

section Survival

variable {issue : Nat → TokenRequest → Result TokenResponse} {requests : List TokenRequest}

/-- The batch goes through the wire, and each element of the decoded batch is present exactly when its
request was issued, with the issued response. -/
def SurvivesWire (issue : Nat → TokenRequest → Result TokenResponse) (requests : List TokenRequest)
    (batch : Result BatchedTokenResponse) : Prop :=
  ∃ response bytes decoded, batch = .ok response ∧ response.serialize = .ok bytes ∧
    BatchedTokenResponse.deserialize bytes = .ok decoded ∧
    decoded.responses.length = requests.length ∧
    ∀ index request, requests[index]? = some request → ∃ element,
      decoded.responses[index]? = some element ∧
      (element.present = true ↔ ∃ response, issue index request = .ok response) ∧
      ∀ response, issue index request = .ok response → element.response = some response

/-- Both issuers answer the requests of a batch one by one. -/
def answers (issue : Nat → TokenRequest → Result TokenResponse) (requests : List TokenRequest) :
    List OptionalTokenResponse :=
  requests.mapIdx fun index request => .ofResult (issue index request)

theorem answers_cons (request : TokenRequest) :
    answers issue (request :: requests) =
      .ofResult (issue 0 request) :: answers (fun index => issue (index + 1)) requests :=
  List.mapIdx_cons

theorem answers_sized
    (sized : ∀ index request response, issue index request = .ok response → response.Sized) :
    ∀ answer ∈ answers issue requests, answer.Sized := by
  intro answer member
  obtain ⟨index, inside, rfl⟩ := List.mem_mapIdx.mp member
  cases outcome : issue index requests[index] with
  | error error => exact .absent
  | ok response => exact .present (sized _ _ _ outcome)

/-- The answers survive the wire exactly when they fit into one payload. -/
theorem survivesWire_iff
    (sized : ∀ index request response, issue index request = .ok response → response.Sized)
    (few : requests.length ≤ BatchedTokenResponse.maxResponseBatchSize)
    (fits : BatchedTokenResponse.payloadSize (answers issue requests) < 2 ^ 62) :
    SurvivesWire issue requests (.ok ⟨answers issue requests⟩) ↔
      BatchedTokenResponse.payloadSize (answers issue requests) ≤ 65535 := by
  have wellSized := @answers_sized _ requests sized
  have written := BatchedTokenResponse.serialize_eq wellSized
    (by unfold BatchedTokenResponse.sizeMax; omega)
  constructor
  · intro ⟨response, bytes, decoded, same, serialized, accepted, _⟩
    cases same
    rw [written] at serialized
    cases serialized
    by_contra large
    rw [BatchedTokenResponse.deserialize_large fits (Nat.not_le.mp large)] at accepted
    cases accepted
  · intro short
    refine ⟨_, _, _, rfl, written, BatchedTokenResponse.deserialize_wire wellSized
      (by rwa [answers, List.length_mapIdx]) short, List.length_mapIdx, ?_⟩
    intro index request found
    refine ⟨.ofResult (issue index request), by simp [answers, found], ?_⟩
    cases issue index request with
    | error error => simp [OptionalTokenResponse.ofResult]
    | ok response => simp [OptionalTokenResponse.ofResult]

/-- Answers that are no longer than their requests fit into a payload that holds the requests. -/
theorem payloadSize_le (shorter : ∀ index, ∀ request ∈ requests,
      (OptionalTokenResponse.ofResult (issue index request)).wire.length ≤ request.serializedSize) :
    BatchedTokenResponse.payloadSize (answers issue requests) ≤
      (requests.map TokenRequest.serializedSize).sum := by
  induction requests generalizing issue with
  | nil => exact le_rfl
  | cons head tail ih =>
      have first := shorter 0 head List.mem_cons_self
      have rest := @ih (fun index => issue (index + 1)) fun index request member =>
        shorter (index + 1) request (List.mem_cons_of_mem _ member)
      rw [answers_cons]
      simp only [BatchedTokenResponse.payloadSize, List.map_cons, List.sum_cons] at rest ⊢
      omega

/-- This is the number of requests that were issued. -/
def issuedCount (issue : Nat → TokenRequest → Result TokenResponse) (requests : List TokenRequest) :
    Nat :=
  (answers issue requests).countP OptionalTokenResponse.present

theorem issuedCount_le : issuedCount issue requests ≤ requests.length :=
  List.countP_le_length.trans_eq List.length_mapIdx

theorem issuedCount_eq_length
    (issued : ∀ index, ∀ request ∈ requests, (issue index request).isOk = true) :
    issuedCount issue requests = requests.length := by
  have length : (answers issue requests).length = requests.length := List.length_mapIdx
  rw [← length]
  apply List.countP_eq_length.mpr
  intro answer member
  obtain ⟨index, inside, rfl⟩ := List.mem_mapIdx.mp member
  have success := issued index requests[index] (List.getElem_mem inside)
  cases outcome : issue index requests[index] with
  | error error =>
      rw [outcome] at success
      cases success
  | ok response => rfl

/-- An issued response takes 148 bytes, and an absent one takes a single byte. -/
theorem payloadSize_voprf (voprf : ∀ index request response, issue index request = .ok response →
      response.Sized ∧ response.tokenType = .voprfP384Sha384) :
    BatchedTokenResponse.payloadSize (answers issue requests) =
      148 * issuedCount issue requests + (requests.length - issuedCount issue requests) ∧
      issuedCount issue requests ≤ requests.length := by
  induction requests generalizing issue with
  | nil => exact ⟨rfl, le_rfl⟩
  | cons head tail ih =>
      obtain ⟨size, bound⟩ := @ih (fun index => issue (index + 1)) fun index =>
        voprf (index + 1)
      rw [issuedCount] at size bound
      rw [issuedCount, answers_cons, List.countP_cons, List.length_cons]
      simp only [BatchedTokenResponse.payloadSize, List.map_cons, List.sum_cons] at size ⊢
      rw [size]
      cases outcome : issue 0 head with
      | error error =>
          have length : (OptionalTokenResponse.ofResult (.error error)).wire.length = 1 := rfl
          rw [length, OptionalTokenResponse.ofResult, if_neg Bool.false_ne_true]
          omega
      | ok response =>
          obtain ⟨sized, typed⟩ := voprf 0 head response outcome
          have length := OptionalTokenResponse.wire_length sized
          rw [typed] at length
          change _ = 148 at length
          rw [OptionalTokenResponse.ofResult, length, if_pos rfl]
          omega

end Survival

theorem PrivateIssuer.issuedCount_eq [EcBackend] (issuer : PrivateIssuer) (draws : Nat → List Nat)
    (requests : List TokenRequest) :
    issuedCount (fun index => issuer.issue (draws index)) requests =
      issuer.evaluableCount draws requests := by
  induction requests generalizing draws with
  | nil => rfl
  | cons head tail ih =>
      have rest := ih fun index => draws (index + 1)
      have first := issuer.issue_isOk (draws 0) head
      rw [issuedCount] at rest
      rw [issuedCount, answers_cons, List.countP_cons, rest, evaluableCount, evaluableCount,
        List.mapIdx_cons, List.count_cons, ← first]
      cases issuer.issue (draws 0) head <;> rfl

/-- An accepted batch has at most 1872 requests. -/
theorem accepted_length {data : Bytes} {requests : BatchedTokenRequest}
    (accepted : BatchedTokenRequest.deserialize data = .ok requests) :
    requests.requests.length ≤ 1872 := by
  obtain ⟨batchable, short⟩ := BatchedTokenRequest.deserialize_only accepted
  exact BatchedTokenRequest.length_le batchable short

theorem PublicIssuer.issueBatch_eq [RsaBackend] (issuer : PublicIssuer)
    (requests : BatchedTokenRequest) : issuer.issueBatch requests =
      .ok ⟨answers (fun _ => issuer.issue) requests.requests⟩ := by
  rw [issueBatch, answers]
  congr 2
  apply List.ext_getElem (by simp)
  intro index left right
  simp

/-- An RSA response is no longer than its request. -/
theorem PublicIssuer.answer_shorter [RsaBackend] (issuer : PublicIssuer) {request : TokenRequest}
    (batchable : BatchedTokenRequest.Batchable request) :
    (OptionalTokenResponse.ofResult (issuer.issue request)).wire.length ≤ request.serializedSize := by
  cases outcome : issuer.issue request with
  | error error => exact (Nat.succ_pos 34).trans_le batchable.long
  | ok response =>
      obtain ⟨typed, sized, rsa⟩ := issue_ok outcome
      have length := OptionalTokenResponse.wire_length sized
      rw [rsa] at length
      rw [OptionalTokenResponse.ofResult, length, TokenRequest.serializedSize, batchable.1]
      rcases typed with typed | typed <;> rw [typed] <;> decide

/-- Accepted batches of the public issuer survive the wire, and those of the private issuer do so
exactly when their responses fit into one payload. -/
theorem issueBatch_survives [CryptoBackend] {data : Bytes} {requests : BatchedTokenRequest}
    (accepted : BatchedTokenRequest.deserialize data = .ok requests) :
    (∀ issuer : PublicIssuer,
      SurvivesWire (fun _ => issuer.issue) requests.requests (issuer.issueBatch requests)) ∧
    ∀ (issuer : PrivateIssuer) (draws : Nat → List Nat), issuer.EvaluatesElements →
      (SurvivesWire (fun index => issuer.issue (draws index)) requests.requests
          (issuer.issueBatch draws requests) ↔
        148 * issuer.evaluableCount draws requests.requests +
          (requests.requests.length - issuer.evaluableCount draws requests.requests) ≤ 65535) := by
  have few := accepted_length accepted
  obtain ⟨batchable, short⟩ := BatchedTokenRequest.deserialize_only accepted
  refine ⟨fun issuer => ?_, fun issuer draws elements => ?_⟩
  · have size : BatchedTokenResponse.payloadSize (answers (fun _ => issuer.issue)
        requests.requests) ≤ requests.payloadSize :=
      payloadSize_le fun index request member => issuer.answer_shorter (batchable request member)
    have fits := size.trans short
    rw [issuer.issueBatch_eq]
    exact (survivesWire_iff (fun _ _ _ outcome => (issuer.issue_ok outcome).2.1)
      (few.trans (by decide)) (fits.trans_lt (by decide))).mpr fits
  · obtain ⟨size, bound⟩ := @payloadSize_voprf (fun index => issuer.issue (draws index))
      requests.requests fun _ _ _ outcome => issuer.issue_ok elements outcome
    rw [← issuer.issuedCount_eq, ← size]
    exact survivesWire_iff (fun _ _ _ outcome => (issuer.issue_ok elements outcome).1)
      (few.trans (by decide)) (by omega)

section Instances

/-- A recorded digest answers for the data with its fingerprint. -/
def recorded (size : Nat) (digests : List (Nat × Nat)) (data : Bytes) : Option (FixedBytes size) :=
  (digests.lookup (BigEndian.ofBytes data % 2305843009213693951)).map fun digest =>
    ⟨BigEndian.toBytes size digest, BigEndian.toBytes_length size digest⟩

/-- These are SHA-384 digests of the transcripts of one evaluation, behind their fingerprints. -/
def recordedSha384 : List (Nat × Nat) := [
  (0x4d5611d4363d7c0,
    0x1dd44ec3f523ff495752996c3e0672e2708d53864d3db754e60ea973687f64c40d136ebec86063c0d596efc1c7a97d27),
  (0x1924f1ac5f36a73c,
    0x6576a180021fe00f5473bb43043add7160a6bd1413dbd7d522f95cd4711e84d91865cc31937f8b00115ce345258a3e49),
  (0xf6c536d0d162ff7,
    0x0185c9c7a798d36af65500a4bd18c12fc5e369cfb80a83a8959f7d9df60d3377f4aac55742d320b6cc14b0dcbc827c5b),
  (0x1bdce6ab1f27eaec,
    0xa6f9032e27600bc28cdaf502970dd22af866f37307a4413493f88ac4907fbfe6c5305505449e723972ecc6bf9469d5c4),
  (0x1f9ba0f862d578b4,
    0x2ce5a2d865984db086082b235947cc175faf08bfaff1430cbef2abfa7a87100f1b0ac7603089a1abad634085e9e2bd95),
  (0x534d0f0eedd6e93,
    0x4ff71754819510aa5b03c4fb56f528238f9a42111814793b79855b11d868c568f6c12479bbad603c2bdbad9935737d0c),
  (0x132d6f626b751d14,
    0x9ac06b926039b6e0a2573879119d2a5ad9039bb01fa3e64fd6dd78366e239ab3284c1914fbc834a06888a9c57d197eec)]

/-- The generator of P-384 and one multiple of it suffice for the evaluation. -/
inductive RecordedPoint where
  | generator
  | composite
  deriving DecidableEq

def RecordedPoint.encode : RecordedPoint → Bytes
  | generator => BigEndian.toBytes 49
      0x03aa87ca22be8b05378eb1c71ef320ad746e1d3b628ba79b9859f741e082542a385502f25dbf55296c3a545e3872760ab7
  | composite => BigEndian.toBytes 49
      0x02fafbc629d7e76a7ef6645ae0a51448aa733737d73ff9a452fd3cee4fea161bfb741f0598e331db8a7189572da4df4e2d

/-- This is the order of P-384. -/
def recordedOrder : Nat :=
  0xffffffffffffffffffffffffffffffffffffffffffffffffc7634d81f4372ddf581a0db248b0a77aecec196accc52973

/-- This scalar is the hash of the composite transcript. -/
def recordedScalar : Nat :=
  0x95f5b0585e98d71619610cdeca8c0ea8e6915271c7065e4b75de52a0513b4455367ed24f6f7e189639b53a187b8d34bc

def RecordedPoint.mul (scalar : Nat) (point : RecordedPoint) : Option RecordedPoint :=
  if scalar = 1 then some point
  else if scalar = recordedScalar ∧ point = generator then some composite
  else none

/-- This backend knows the values of one evaluation under the key one. -/
abbrev recordedBackend : CryptoBackend where
  evpSha256 := recorded 32 [
  (0x1c367cd5dee2cd3b, 0x617e8efc7b1c96fc22a3f85de7b8be4a8f6fed953738329db394d008530e6f7b)]
  evpSha384 := recorded 48 recordedSha384
  parsePublicKeySpki _ := none
  marshalPublicKey _ := none
  paddingAddPkcs1Pss _ _ _ := none
  digestVerify _ _ _ := none
  Point := RecordedPoint
  order := recordedOrder
  octToPoint data := [.generator, .composite].find? fun point => point.encode = data
  isOnCurve _ := true
  isAtInfinity _ := false
  pointToOct point := some point.encode
  mul := RecordedPoint.mul
  mulGenerator scalar := RecordedPoint.mul scalar .generator
  add _ _ := none

/-- The issuer has the private key one. -/
abbrev recordedIssuer : PrivateIssuer :=
  @PrivateIssuer.create recordedBackend.toEcBackend ⟨some 1⟩ (.zero 32, 0)

def generatorRequest : TokenRequest := ⟨.voprfP384Sha384, 0x7b, RecordedPoint.generator.encode⟩

theorem generatorRequest_issued :
    (@PrivateIssuer.issue recordedBackend.toEcBackend recordedIssuer [1] generatorRequest).isOk =
      true := by
  decide +kernel

theorem generatorRequest_batchable : BatchedTokenRequest.Batchable generatorRequest :=
  ⟨rfl, by decide⟩

theorem recordedIssuer_elements :
    @PrivateIssuer.EvaluatesElements recordedBackend.toEcBackend recordedIssuer := by
  intro server _ draws blinded evaluation success
  obtain ⟨⟨point, encoded⟩, -⟩ := @blindEvaluate_ok recordedBackend.toEcBackend _ _ _ _ success
  rw [← Except.ok.inj encoded]
  cases point <;> exact BigEndian.toBytes_length _ _

/-- This request is for another key. -/
def strayRequest : TokenRequest := ⟨.voprfP384Sha384, 0x00, RecordedPoint.generator.encode⟩

theorem strayRequest_refused :
    (@PrivateIssuer.issue recordedBackend.toEcBackend recordedIssuer [1] strayRequest).isOk =
      false := by
  decide +kernel

/-- The second request of the batch fails. -/
def mixedRequests : List TokenRequest := [generatorRequest, strayRequest, generatorRequest]

theorem mixedRequests_batchable : ∀ request ∈ mixedRequests,
    BatchedTokenRequest.Batchable request := by
  intro request member
  simp only [mixedRequests, List.mem_cons, List.not_mem_nil, or_false] at member
  rcases member with rfl | rfl | rfl
  · exact generatorRequest_batchable
  · exact ⟨rfl, by decide⟩
  · exact generatorRequest_batchable

/-- The responses to a batch with a failing request survive the wire. -/
theorem issueBatch_survives_mixed :
    (∃ request ∈ mixedRequests,
      (@PrivateIssuer.issue recordedBackend.toEcBackend recordedIssuer [1] request).isOk = true) ∧
    (∃ request ∈ mixedRequests,
      (@PrivateIssuer.issue recordedBackend.toEcBackend recordedIssuer [1] request).isOk = false) ∧
    SurvivesWire (fun _ => @PrivateIssuer.issue recordedBackend.toEcBackend recordedIssuer [1])
      mixedRequests (@PrivateIssuer.issueBatch recordedBackend.toEcBackend recordedIssuer
        (fun _ => [1]) ⟨mixedRequests⟩) := by
  have accepted : BatchedTokenRequest.deserialize
      (payloadWire (mixedRequests.flatMap TokenRequest.wire)) = .ok ⟨mixedRequests⟩ :=
    BatchedTokenRequest.deserialize_wire mixedRequests_batchable (by decide) (by decide)
  refine ⟨⟨generatorRequest, by simp [mixedRequests], generatorRequest_issued⟩,
    ⟨strayRequest, by simp [mixedRequests], strayRequest_refused⟩, ?_⟩
  refine ((@issueBatch_survives recordedBackend _ _ accepted).2 recordedIssuer (fun _ => [1])
    recordedIssuer_elements).mpr ?_
  have count := @issuedCount_le (fun _ => @PrivateIssuer.issue recordedBackend.toEcBackend
    recordedIssuer [1]) mixedRequests
  rw [← @PrivateIssuer.issuedCount_eq recordedBackend.toEcBackend]
  dsimp only
  have length : mixedRequests.length = 3 := rfl
  omega

/-- This batch repeats one request 443 times. -/
def crowdedRequests : BatchedTokenRequest := ⟨List.replicate 443 generatorRequest⟩

/-- The requests of the batch fit into one payload, but their responses do not. -/
theorem issueBatch_survives_crowded :
    BatchedTokenRequest.deserialize
      (payloadWire (crowdedRequests.requests.flatMap TokenRequest.wire)) = .ok crowdedRequests ∧
    @PrivateIssuer.EvaluatesElements recordedBackend.toEcBackend recordedIssuer ∧
    ¬ SurvivesWire (fun _ => @PrivateIssuer.issue recordedBackend.toEcBackend recordedIssuer [1])
      crowdedRequests.requests (@PrivateIssuer.issueBatch recordedBackend.toEcBackend recordedIssuer
        (fun _ => [1]) crowdedRequests) := by
  have same : ∀ request ∈ crowdedRequests.requests, request = generatorRequest :=
    fun request member => List.eq_of_mem_replicate member
  have length : crowdedRequests.requests.length = 443 := List.length_replicate
  refine ⟨BatchedTokenRequest.deserialize_wire (fun request member => ?_) ?_ ?_,
    recordedIssuer_elements, fun survives => ?_⟩
  · rw [same request member]
    exact generatorRequest_batchable
  · rw [length]
    decide
  · rw [crowdedRequests, List.map_replicate, List.sum_replicate]
    decide
  · have issued := @issuedCount_eq_length
      (fun _ => @PrivateIssuer.issue recordedBackend.toEcBackend recordedIssuer [1])
      crowdedRequests.requests fun _ request member => by
        rw [same request member]
        exact generatorRequest_issued
    have voprf : ∀ (_ : Nat) request response, @PrivateIssuer.issue recordedBackend.toEcBackend
        recordedIssuer [1] request = .ok response →
          response.Sized ∧ response.tokenType = .voprfP384Sha384 := fun _ _ _ outcome =>
      @PrivateIssuer.issue_ok recordedBackend.toEcBackend _ recordedIssuer_elements _ _ _ outcome
    obtain ⟨size, -⟩ := @payloadSize_voprf _ crowdedRequests.requests voprf
    rw [issued, length] at size
    have short := (survivesWire_iff (fun index request response outcome =>
      (voprf index request response outcome).1) (by rw [length]; decide) (by omega)).mp survives
    omega

end Instances

end PrivacyPass
