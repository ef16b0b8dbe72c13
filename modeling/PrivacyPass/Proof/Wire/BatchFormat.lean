import PrivacyPass.Proof.Wire.Batches

/-
This file proves that the batches have one format in both directions.
-/

namespace PrivacyPass

open Library

/-- The size in front of a payload is a form of the payload's length. -/
theorem PayloadForm.exists_length {maxPayloadSize : UInt64} {data payload : Bytes}
    (form : PayloadForm maxPayloadSize data payload) :
    ∃ word, ByteReader.VarintForm word payload.length.toUInt64 ∧
      payload.length ≤ maxPayloadSize.toNat ∧ data = word ++ payload := by
  obtain ⟨word, size, form, small, length, equal⟩ := form
  have same : payload.length.toUInt64 = size := by
    rw [length]
    exact UInt64.ofNat_toNat
  rw [same, length]
  exact ⟨word, form, UInt64.le_iff_toNat_le.mp small, equal⟩

/-- A payload stands behind its size in any form, and the size is bounded. -/
theorem payloadForm_iff {maxPayloadSize : UInt64} {data payload : Bytes} :
    PayloadForm maxPayloadSize data payload ↔ ∃ word size, ByteReader.VarintForm word size ∧
      size.toNat ≤ maxPayloadSize.toNat ∧ payload.length = size.toNat ∧ data = word ++ payload := by
  constructor
  · intro ⟨word, size, form, small, length, equal⟩
    exact ⟨word, size, form, UInt64.le_iff_toNat_le.mp small, length, equal⟩
  · intro ⟨word, size, form, small, length, equal⟩
    exact ⟨word, size, form, UInt64.le_iff_toNat_le.mpr small, length, equal⟩

namespace BatchedTokenRequest

/-- A request is batchable exactly when it has a known type and the size of its type. -/
theorem batchable_iff {request : TokenRequest} :
    Batchable request ↔ request.tokenType ∈ TokenType.known ∧ request.Sized := by
  rw [Batchable, TokenTypeInfo.blindedElementSize_ne_zero_iff]
  exact and_comm

theorem batchable_all_iff {requests : List TokenRequest} : (∀ request ∈ requests, Batchable request) ↔
    ∀ request ∈ requests, request.tokenType ∈ TokenType.known ∧ request.Sized :=
  forall₂_congr fun _ _ => batchable_iff

/-- Every batch is written as one payload. -/
theorem serialize_eq (requests : List TokenRequest) :
    serialize ⟨requests⟩ = .ok (payloadWire (requests.flatMap TokenRequest.wire)) := by
  have all : requests.mapM TokenRequest.serialize = .ok (requests.map TokenRequest.wire) := by
    induction requests with
    | nil => rfl
    | cons head tail ih =>
        rw [List.mapM_cons, TokenRequest.serialize_eq, ih]
        rfl
  have size : payloadSize ⟨requests⟩ = (requests.map TokenRequest.wire).flatten.length := by
    rw [payloadSize, ← flatMap_wire_length, List.flatMap_def]
  rw [serialize, Result.bind_ok all, size, build_payloadWire, List.flatMap_def]

/-- A batch of requests is decoded from a size in any form and the requests behind it, and it is
written with the size in its shortest form. -/
theorem requests_format :
    (∀ data requests, deserialize data = .ok ⟨requests⟩ ↔
      (∀ request ∈ requests, request.tokenType ∈ TokenType.known ∧ request.Sized) ∧
        ∃ word size, ByteReader.VarintForm word size ∧ size.toNat ≤ 65535 ∧
          (requests.flatMap TokenRequest.wire).length = size.toNat ∧
          data = word ++ requests.flatMap TokenRequest.wire) ∧
    (∀ data requests, deserialize data = .ok ⟨requests⟩ → ∃ word size,
      ByteReader.VarintForm word size ∧ data = word ++ requests.flatMap TokenRequest.wire ∧
        serialize ⟨requests⟩ = .ok (varintBytes size ++ requests.flatMap TokenRequest.wire) ∧
        ∀ other, ByteReader.VarintForm other size → (varintBytes size).length ≤ other.length) ∧
    ∀ requests : List TokenRequest,
      (∀ request ∈ requests, request.tokenType ∈ TokenType.known ∧ request.Sized) →
      (requests.flatMap TokenRequest.wire).length ≤ 65535 →
        ∃ bytes, serialize ⟨requests⟩ = .ok bytes ∧ deserialize bytes = .ok ⟨requests⟩ := by
  have few {requests : List TokenRequest} (each : ∀ request ∈ requests, Batchable request)
      (short : (requests.flatMap TokenRequest.wire).length ≤ 65535) :
      requests.length ≤ maxBatchSize := by
    rw [flatMap_wire_length] at short
    exact (length_le each short).trans (by decide)
  refine ⟨fun data requests => ?_, fun data requests success => ?_, fun requests each short => ?_⟩
  · rw [deserialize_iff, batchable_all_iff, payloadForm_iff]
    constructor
    · intro ⟨each, _, form⟩
      exact ⟨each, form⟩
    · intro ⟨each, word, size, form, small, length, equal⟩
      have count := few (batchable_all_iff.mpr each) (by rw [length]; exact small)
      exact ⟨each, count, word, size, form, small, length, equal⟩
  · obtain ⟨word, form, -, equal⟩ := (deserialize_iff.mp success).2.2.exists_length
    exact ⟨word, _, form, equal, serialize_eq requests, fun _ => ByteReader.varintBytes_shortest⟩
  · have listed := batchable_all_iff.mpr each
    exact ⟨_, serialize_eq requests, deserialize_iff.mpr ⟨listed, few listed short,
      payloadForm_wire (by omega) short⟩⟩

/-- A request with an element of 32 bytes. -/
def ristrettoRequest (keyId : UInt8) : TokenRequest :=
  .create .voprfRistretto255Sha512 keyId (List.replicate 32 0)

theorem ristrettoRequest_sized (keyId : UInt8) :
    (ristrettoRequest keyId).tokenType ∈ TokenType.known ∧ (ristrettoRequest keyId).Sized :=
  ⟨show TokenType.voprfRistretto255Sha512 ∈ TokenType.known from by decide, rfl⟩

theorem ristrettoRequests_sized : ∀ request ∈ [ristrettoRequest 1, ristrettoRequest 2],
    request.tokenType ∈ TokenType.known ∧ request.Sized := by
  intro request member
  simp only [List.mem_cons, List.not_mem_nil, or_false] at member
  rcases member with rfl | rfl <;> exact ristrettoRequest_sized _

/-- Two requests survive the batch. -/
theorem requests_format_two : ∃ bytes,
    serialize ⟨[ristrettoRequest 1, ristrettoRequest 2]⟩ = .ok bytes ∧
      deserialize bytes = .ok ⟨[ristrettoRequest 1, ristrettoRequest 2]⟩ :=
  requests_format.2.2 _ ristrettoRequests_sized (by decide +kernel)

/-- The batch that was written is read back exactly when its requests are batchable and fit into one
payload. -/
theorem serialize_survives_iff (batch : BatchedTokenRequest) :
    (∀ bytes, batch.serialize = .ok bytes → deserialize bytes = .ok batch) ↔
      (∀ request ∈ batch.requests, request.tokenType ∈ TokenType.known ∧ request.Sized) ∧
        batch.payloadSize ≤ 65535 := by
  rw [← batchable_all_iff]
  constructor
  · exact fun survives => deserialize_only (survives _ (serialize_eq batch.requests))
  · intro ⟨each, short⟩ bytes written
    rw [serialize_eq] at written
    obtain rfl := Except.ok.inj written
    exact deserialize_wire each ((length_le each short).trans (by decide)) short

/-- The message of this request goes on with a second request. -/
def mergedRequest : TokenRequest :=
  .create .voprfRistretto255Sha512 1 (List.replicate 32 0 ++ (ristrettoRequest 2).wire)

/-- One request with a message that is too long is read back as two requests. -/
theorem serialize_merged_differs : ∃ bytes, serialize ⟨[mergedRequest]⟩ = .ok bytes ∧
    deserialize bytes = .ok ⟨[ristrettoRequest 1, ristrettoRequest 2]⟩ := by
  have same : [mergedRequest].flatMap TokenRequest.wire =
      [ristrettoRequest 1, ristrettoRequest 2].flatMap TokenRequest.wire := by decide +kernel
  refine ⟨_, serialize_eq _, ?_⟩
  rw [same]
  exact deserialize_wire (batchable_all_iff.mpr ristrettoRequests_sized) (by decide +kernel)
    (by decide +kernel)

/-- A batch behind its size in the shortest form is the list of one request exactly when its payload is
the wire format of a batchable request. -/
theorem deserialize_single_iff {data : Bytes} (short : data.length ≤ 65535) (request : TokenRequest) :
    deserialize (payloadWire data) = .ok ⟨[request]⟩ ↔ data = request.wire ∧ Batchable request := by
  rw [deserialize_iff, List.flatMap_singleton, payloadForm_wire_iff (by omega) short]
  constructor
  · intro ⟨each, _, equal⟩
    exact ⟨equal.symm, each request List.mem_cons_self⟩
  · intro ⟨equal, batchable⟩
    refine ⟨?_, Nat.succ_le_succ (Nat.zero_le _), equal.symm⟩
    intro other member
    rwa [List.mem_singleton.mp member]

end BatchedTokenRequest

/-- The parser of one request and the parser of a batch agree on the data exactly when the data is not
an unknown type with a key id and nothing else. -/
theorem TokenRequest.deserialize_agrees_iff {data : Bytes} (short : data.length ≤ 65535) :
    (∀ request, deserialize data = .ok request ↔
      BatchedTokenRequest.deserialize (payloadWire data) = .ok ⟨[request]⟩) ↔
    ∀ type keyId, data = u16Bytes type ++ [keyId] → (⟨type⟩ : TokenType) ∈ TokenType.known := by
  have single (request : TokenRequest) : deserialize data = .ok request ↔
      data = request.wire ∧ request.Sized := by
    constructor
    · exact deserialize_only
    · rintro ⟨rfl, sized⟩
      exact deserialize_wire sized
  simp only [single, BatchedTokenRequest.deserialize_single_iff short]
  constructor
  · rintro agrees type keyId rfl
    by_contra unknown
    have empty : (create ⟨type⟩ keyId []).Sized := by
      rw [Sized, create, TokenTypeInfo.forType_unknown unknown]
      rfl
    have batchable := ((agrees (create ⟨type⟩ keyId [])).mp ⟨rfl, empty⟩).2
    exact unknown (BatchedTokenRequest.batchable_iff.mp batchable).1
  · intro known request
    refine and_congr_right fun equal => ⟨fun sized => ?_, fun batchable => batchable.1⟩
    refine BatchedTokenRequest.batchable_iff.mpr ⟨?_, sized⟩
    by_contra unknown
    have empty : request.blindedMsg = [] := by
      rw [Sized, TokenTypeInfo.forType_unknown unknown] at sized
      exact List.length_eq_zero_iff.mp sized
    refine unknown (known request.tokenType.value request.truncatedTokenKeyId ?_)
    rw [equal, wire, empty]

/-- Both parsers refuse a known type with a key id and nothing else. -/
theorem TokenRequest.deserialize_agrees_short :
    (∀ request, deserialize [0x00, 0x05, 0x07] = .ok request ↔
      BatchedTokenRequest.deserialize (payloadWire [0x00, 0x05, 0x07]) = .ok ⟨[request]⟩) ↔
    ∀ type keyId, [0x00, 0x05, 0x07] = u16Bytes type ++ [keyId] →
      (⟨type⟩ : TokenType) ∈ TokenType.known :=
  TokenRequest.deserialize_agrees_iff (by decide)

/-- The parser of one request accepts an unknown type, and the parser of a batch refuses it. -/
theorem TokenRequest.deserialize_unknown_differs :
    deserialize [0x00, 0x03, 0x07] = .ok ⟨⟨3⟩, 7, []⟩ ∧
      BatchedTokenRequest.deserialize (payloadWire [0x00, 0x03, 0x07]) ≠ .ok ⟨[⟨⟨3⟩, 7, []⟩]⟩ := by
  refine ⟨rfl, fun success => ?_⟩
  have batchable := ((BatchedTokenRequest.deserialize_single_iff (by decide) _).mp success).2
  exact absurd (BatchedTokenRequest.batchable_iff.mp batchable).1 (by decide)

/-- A batch of responses is decoded from a size in any form and at most 10000 responses behind it, and it
is written with the size in its shortest form. -/
theorem BatchedTokenResponse.responses_format :
    (∀ data responses, deserialize data = .ok ⟨responses⟩ ↔
      (∀ response ∈ responses, response.Sized) ∧ responses.length ≤ 10000 ∧
        ∃ word size, ByteReader.VarintForm word size ∧ size.toNat ≤ 65535 ∧
          (responses.flatMap OptionalTokenResponse.wire).length = size.toNat ∧
          data = word ++ responses.flatMap OptionalTokenResponse.wire) ∧
    (∀ data responses, deserialize data = .ok ⟨responses⟩ → ∃ word size,
      ByteReader.VarintForm word size ∧ data = word ++ responses.flatMap OptionalTokenResponse.wire ∧
        serialize ⟨responses⟩ = .ok (varintBytes size ++ responses.flatMap OptionalTokenResponse.wire) ∧
        ∀ other, ByteReader.VarintForm other size → (varintBytes size).length ≤ other.length) ∧
    ∀ responses : List OptionalTokenResponse, (∀ response ∈ responses, response.Sized) →
      responses.length ≤ 10000 → (responses.flatMap OptionalTokenResponse.wire).length ≤ 65535 →
        ∃ bytes, serialize ⟨responses⟩ = .ok bytes ∧ deserialize bytes = .ok ⟨responses⟩ := by
  have written {responses : List OptionalTokenResponse}
      (each : ∀ response ∈ responses, response.Sized)
      (short : (responses.flatMap OptionalTokenResponse.wire).length ≤ 65535) :
      serialize ⟨responses⟩ = .ok (payloadWire (responses.flatMap OptionalTokenResponse.wire)) := by
    rw [flatMap_wire_length] at short
    exact serialize_eq each (short.trans (by decide))
  refine ⟨fun data responses => ?_, fun data responses success => ?_, fun responses each few short => ?_⟩
  · rw [deserialize_iff, payloadForm_iff]
    exact Iff.rfl
  · obtain ⟨each, few, form⟩ := deserialize_iff.mp success
    obtain ⟨word, form, short, equal⟩ := form.exists_length
    exact ⟨word, _, form, equal, written each short, fun _ => ByteReader.varintBytes_shortest⟩
  · exact ⟨_, written each short, deserialize_iff.mpr ⟨each, few, payloadForm_wire (by omega) short⟩⟩

/-- An RSA response between two absent ones survives the batch. -/
theorem BatchedTokenResponse.responses_format_three : ∃ bytes,
    serialize ⟨[⟨false, none⟩, ⟨true, some (.createBlindRsa (List.replicate 256 0))⟩, ⟨false, none⟩]⟩ =
      .ok bytes ∧ deserialize bytes =
        .ok ⟨[⟨false, none⟩, ⟨true, some (.createBlindRsa (List.replicate 256 0))⟩, ⟨false, none⟩]⟩ := by
  refine responses_format.2.2 _ (fun response member => ?_) (by decide) (by decide +kernel)
  simp only [List.mem_cons, List.not_mem_nil, or_false] at member
  rcases member with rfl | rfl | rfl
  · exact .absent
  · exact .present ⟨.inl rfl, by decide +kernel⟩
  · exact .absent

end PrivacyPass
