import Mathlib.Algebra.Order.BigOperators.Group.List
import PrivacyPass.Construction.TokenResponse
import PrivacyPass.Proof.Wire.Primitives

/-
This file proves which bytes the batches of requests and responses decode from.
-/

namespace PrivacyPass

open Library

section Payload

variable {maxPayloadSize : UInt64}
  {sizeMessage largeMessage payloadMessage trailingMessage : String}

/-- A payload goes to the wire behind its size. -/
def payloadWire (payload : Bytes) : Bytes := varintBytes payload.length.toUInt64 ++ payload

/-- The data is a payload behind any form of its size, and the size is within the limit. -/
def PayloadForm (maxPayloadSize : UInt64) (data payload : Bytes) : Prop :=
  ∃ word size, ByteReader.VarintForm word size ∧ size ≤ maxPayloadSize ∧
    payload.length = size.toNat ∧ data = word ++ payload

/-- The size of a payload is read back from the wire. -/
theorem payloadSize_toNat {payload : Bytes} (fits : payload.length < 2 ^ 62) :
    payload.length.toUInt64.toNat = payload.length :=
  UInt64.toNat_ofNat_of_lt' (by change _ < 18446744073709551616; omega)

/-- A payload that is small enough is written in one of its forms. -/
theorem payloadForm_wire {payload : Bytes} (fits : payload.length < 2 ^ 62)
    (short : payload.length ≤ maxPayloadSize.toNat) :
    PayloadForm maxPayloadSize (payloadWire payload) payload := by
  have size := payloadSize_toNat fits
  refine ⟨_, payload.length.toUInt64, ByteReader.varintBytes_form _ ?_, ?_, size.symm, rfl⟩
  · rw [size]
    exact fits
  · rw [UInt64.le_iff_toNat_le, size]
    exact short

/-- The decoder returns exactly the payloads behind a form of their size. -/
theorem payloadDecoder_iff {data payload : Bytes} :
    ((payloadDecoder maxPayloadSize sizeMessage largeMessage payloadMessage trailingMessage)
      (.start data)).1 = .ok payload ↔ PayloadForm maxPayloadSize data payload := by
  constructor
  · intro success
    obtain ⟨size, moved, word, form, sizeRest, success⟩ :=
      ByteReader.readVarint_only.bind_eq_ok (Prod.ext success rfl : _ = (Except.ok payload, _))
    obtain ⟨small, success⟩ := Decoder.reject_bind_eq_ok success
    obtain ⟨bytes, last, _, ⟨rfl, length⟩, payloadRest, success⟩ :=
      (ByteReader.readBytes_only size.toNat).bind_eq_ok success
    obtain ⟨done, success⟩ := Decoder.finish_bind_eq_ok success
    obtain ⟨rfl, -⟩ := Decoder.pure_eq_ok.mp success
    refine ⟨word, size, form, UInt64.not_lt.mp small, length, ?_⟩
    change data = _ at sizeRest
    rw [sizeRest, payloadRest, done, List.append_nil]
  · rintro ⟨word, size, form, small, length, rfl⟩
    have read : Reads (ByteReader.readBytes size.toNat) payload payload := by
      rw [← length]
      exact ByteReader.readBytes_reads payload
    have whole := read.decodes (⟨.unexpectedEnd, payloadMessage⟩ : Error) ([] ++ word) []
    rw [List.append_nil] at whole
    unfold Cursor.start payloadDecoder
    rw [(form.reads.decodes _).bind_apply, Decoder.reject_bind (UInt64.not_lt.mpr small),
      Decoder.bind_ok whole, Decoder.finish_bind]
    rfl

/-- The wire format of a payload is a form of no other payload. -/
theorem payloadForm_wire_iff {payload content : Bytes} (fits : content.length < 2 ^ 62)
    (short : content.length ≤ maxPayloadSize.toNat) :
    PayloadForm maxPayloadSize (payloadWire content) payload ↔ payload = content := by
  constructor
  · intro form
    have decoded := (@payloadDecoder_iff maxPayloadSize "" "" "" "" _ _).mpr form
    rw [(@payloadDecoder_iff maxPayloadSize "" "" "" "" _ _).mpr (payloadForm_wire fits short)] at decoded
    exact (Except.ok.inj decoded).symm
  · rintro rfl
    exact payloadForm_wire fits short

/-- The decoder refuses a payload that is too large. -/
theorem payloadDecoder_large {payload : Bytes} (fits : payload.length < 2 ^ 62)
    (large : maxPayloadSize.toNat < payload.length) :
    ((payloadDecoder maxPayloadSize sizeMessage largeMessage payloadMessage trailingMessage)
      (.start (payloadWire payload))).1 = .error ⟨.malformedData, largeMessage⟩ := by
  have size := payloadSize_toNat fits
  have above : payload.length.toUInt64 > maxPayloadSize := by
    rw [gt_iff_lt, UInt64.lt_iff_toNat_lt, size]
    exact large
  unfold Cursor.start payloadWire payloadDecoder
  rw [((ByteReader.readVarint_reads payload.length.toUInt64 (by rw [size]; exact fits)).decodes
    _).bind_apply, Decoder.reject, if_pos above]
  rfl

section Items

variable {α β : Type} {element : Nat → ByteDecoder α} {consumes : ∀ count, Consumes (element count)}
  {encode : α → Bytes} {fits : α → Prop} {limit : Nat} {collect : List α → β}

/-- A batch is decoded from exactly the payloads that join the words of its items. -/
theorem batch_iff (nonempty : ∀ value, fits value → encode value ≠ [])
    (decodes : ∀ count < limit, ∀ value, fits value → Decodes (element count) (encode value) value)
    (only : ∀ count, DecodesOnly (element count) fun word value =>
      word = encode value ∧ count < limit ∧ fits value) {data : Bytes} {batch : β} :
    Decoder.run (do
      let payload ← payloadDecoder maxPayloadSize sizeMessage largeMessage payloadMessage
        trailingMessage
      let items ← .lift ((Decoder.untilEmpty element consumes 0 (.start payload)).1)
      pure (collect items)) data = .ok batch ↔
    ∃ values, batch = collect values ∧ (∀ value ∈ values, fits value) ∧ values.length ≤ limit ∧
      PayloadForm maxPayloadSize data (values.flatMap encode) := by
  constructor
  · intro success
    obtain ⟨final, success⟩ := Decoder.run_eq_ok.mp success
    obtain ⟨payload, moved, step, success⟩ := Decoder.bind_eq_ok.mp success
    obtain ⟨values, last, decoded, success⟩ := Decoder.bind_eq_ok.mp success
    obtain ⟨looped, rfl⟩ := Decoder.lift_eq_ok.mp decoded
    obtain ⟨rfl, rfl⟩ := Decoder.pure_eq_ok.mp success
    obtain ⟨rfl, each, few⟩ := (Decoder.untilEmpty_iff nonempty decodes only).mp looped
    exact ⟨values, rfl, each, few, payloadDecoder_iff.mp (congrArg Prod.fst step)⟩
  · rintro ⟨values, rfl, each, few, form⟩
    have looped := (@Decoder.untilEmpty_iff _ _ _ element consumes encode fits limit nonempty decodes
      only _ _).mpr ⟨rfl, each, few⟩
    rw [Decoder.run_eq_ok, Decoder.bind_ok (Prod.ext (payloadDecoder_iff.mpr form) rfl)]
    exact ⟨_, Decoder.bind_ok (Decoder.lift_eq_ok.mpr ⟨looped, rfl⟩)⟩

/-- Items that do not fit into one payload are refused. -/
theorem batch_large {values : List α} (fits : (values.flatMap encode).length < 2 ^ 62)
    (large : maxPayloadSize.toNat < (values.flatMap encode).length) :
    Decoder.run (do
      let payload ← payloadDecoder maxPayloadSize sizeMessage largeMessage payloadMessage
        trailingMessage
      let items ← .lift ((Decoder.untilEmpty element consumes 0 (.start payload)).1)
      pure (collect items)) (payloadWire (values.flatMap encode)) =
        .error ⟨.malformedData, largeMessage⟩ :=
  Decoder.bind_error (payloadDecoder_large fits large)

end Items

/-- The size and the items of a batch are written as its payload. -/
theorem build_payloadWire (items : List Bytes) :
    ByteWriter.build (ByteWriter.writeVarint items.flatten.length.toUInt64 ::
      items.map ByteWriter.writeBytes) = payloadWire items.flatten := by
  refine ((ByteWriter.writeVarint_appends _).cons ?_).build
  have emits := ByteWriter.emits_map items fun item _ => ByteWriter.writeBytes_appends item
  rwa [List.flatMap_def, List.map_id'] at emits

end Payload

namespace TokenRequest

def wire (request : TokenRequest) : Bytes :=
  u16Bytes request.tokenType.value ++ request.truncatedTokenKeyId :: request.blindedMsg

theorem wire_length (request : TokenRequest) : request.wire.length = request.serializedSize := by
  simp [wire, serializedSize, u16Bytes]
  omega

theorem serialize_eq (request : TokenRequest) : request.serialize = .ok request.wire := by
  have emits := (ByteWriter.writeU16_appends request.tokenType.value).cons
    ((ByteWriter.writeU8_appends request.truncatedTokenKeyId).cons
      ((ByteWriter.writeBytes_appends request.blindedMsg).cons ByteWriter.emits_nil))
  rw [serialize, emits.build, List.append_nil]
  rfl

/-- The blinded message has the size of its type. -/
def Sized (request : TokenRequest) : Prop :=
  request.blindedMsg.length = (TokenTypeInfo.forType request.tokenType).blindedElementSize

/-- A sized request is decoded from its wire format. -/
theorem deserialize_wire {request : TokenRequest} (sized : request.Sized) :
    deserialize request.wire = .ok request := by
  have read : Reads (ByteReader.readBytes
      (TokenTypeInfo.forType request.tokenType).blindedElementSize) request.blindedMsg
      request.blindedMsg := by
    rw [← sized]
    exact ByteReader.readBytes_reads request.blindedMsg
  have enough : ¬ request.blindedMsg.length <
      (TokenTypeInfo.forType request.tokenType).blindedElementSize := by
    rw [sized]
    exact lt_irrefl _
  have whole := read.decodes (⟨.unexpectedEnd, "Failed to read blinded_msg"⟩ : Error)
    ([] ++ u16Bytes request.tokenType.value ++ [request.truncatedTokenKeyId]) []
  rw [List.append_nil] at whole
  rw [deserialize, Decoder.run_eq_ok, wire]
  unfold Cursor.start decoder
  rw [((ByteReader.readU16_reads _).decodes _).bind_apply, ← List.singleton_append,
    ((ByteReader.readU8_reads _).decodes _).bind_apply, Decoder.bind_ok (Decoder.unread_apply _),
    Decoder.reject_bind enough, Decoder.bind_ok whole, Decoder.finish_bind]
  exact ⟨_, rfl⟩

/-- The decoder accepts nothing but sized requests in their wire format. -/
theorem deserialize_only {data : Bytes} {request : TokenRequest}
    (success : deserialize data = .ok request) : data = request.wire ∧ request.Sized := by
  obtain ⟨final, success⟩ := Decoder.run_eq_ok.mp success
  obtain ⟨type, afterType, _, rfl, typeRest, success⟩ := ByteReader.readU16_only.bind_eq_ok success
  obtain ⟨keyId, afterId, _, rfl, idRest, success⟩ := ByteReader.readU8_only.bind_eq_ok success
  obtain ⟨remaining, moved, unread, success⟩ := Decoder.bind_eq_ok.mp success
  cases unread
  obtain ⟨-, success⟩ := Decoder.reject_bind_eq_ok success
  obtain ⟨blinded, last, _, ⟨rfl, size⟩, blindedRest, success⟩ :=
    (ByteReader.readBytes_only _).bind_eq_ok success
  obtain ⟨done, success⟩ := Decoder.finish_bind_eq_ok success
  obtain ⟨rfl, rfl⟩ := Decoder.pure_eq_ok.mp success
  refine ⟨?_, size⟩
  change data = _ at typeRest
  rw [typeRest, idRest, blindedRest, done, List.append_nil]
  rfl

end TokenRequest

namespace BatchedTokenRequest

/-- The request has a known type and the size of its type. -/
def Batchable (request : TokenRequest) : Prop :=
  request.Sized ∧ (TokenTypeInfo.forType request.tokenType).blindedElementSize ≠ 0

theorem requestDecoder_decodes {request : TokenRequest} (batchable : Batchable request) {count : Nat}
    (room : count < maxBatchSize) : Decodes (requestDecoder count) request.wire request := by
  obtain ⟨sized, known⟩ := batchable
  have read : Reads (ByteReader.readBytes
      (2 + 1 + (TokenTypeInfo.forType request.tokenType).blindedElementSize)) request.wire
      request.wire := by
    rw [← sized, ← TokenRequest.serializedSize, ← TokenRequest.wire_length]
    exact ByteReader.readBytes_reads request.wire
  intro before rest
  rw [requestDecoder, Decoder.reject_bind (Nat.not_le.mpr room),
    Decoder.bind_ok (Decoder.unread_apply _)]
  dsimp only [TokenRequest.wire, u16Bytes, List.cons_append, List.nil_append]
  rw [ByteReader.u16Bytes_join, Decoder.reject_bind known]
  change (Decoder.ofRead _ _ >>= _) ⟨before, request.wire ++ rest⟩ = _
  rw [(read.decodes _).bind_apply, TokenRequest.deserialize_wire sized]
  rfl

theorem requestDecoder_only (count : Nat) : DecodesOnly (requestDecoder count) fun word request =>
    word = request.wire ∧ count < maxBatchSize ∧ Batchable request := by
  intro cursor request final success
  obtain ⟨room, success⟩ := Decoder.reject_bind_eq_ok success
  obtain ⟨remaining, moved, unread, success⟩ := Decoder.bind_eq_ok.mp success
  cases unread
  rcases shape : cursor.rest with _ | ⟨high, _ | ⟨low, _ | ⟨third, tail⟩⟩⟩ <;>
    rw [shape] at success
  · cases success
  · cases success
  · cases success
  · obtain ⟨known, success⟩ := Decoder.reject_bind_eq_ok success
    obtain ⟨data, last, _, ⟨rfl, size⟩, rest, success⟩ :=
      (ByteReader.readBytes_only _).bind_eq_ok success
    obtain ⟨decoded, rfl⟩ := Decoder.lift_eq_ok.mp success
    obtain ⟨rfl, sized⟩ := TokenRequest.deserialize_only decoded
    refine ⟨_, ⟨rfl, Nat.not_le.mp room, sized, ?_⟩, shape.symm.trans rest⟩
    obtain ⟨first, others⟩ := List.cons.inj (shape.symm.trans rest)
    obtain ⟨second, -⟩ := List.cons.inj others
    rwa [first, second, ByteReader.u16Bytes_join] at known

/-- A batch of requests is decoded from exactly the payloads that join its batchable requests. -/
theorem deserialize_iff {data : Bytes} {requests : List TokenRequest} :
    deserialize data = .ok ⟨requests⟩ ↔ (∀ request ∈ requests, Batchable request) ∧
      requests.length ≤ maxBatchSize ∧
      PayloadForm maxBatchPayloadSize data (requests.flatMap TokenRequest.wire) := by
  have decoded := @batch_iff maxBatchPayloadSize "Failed to read batch size" "Batch payload too large"
    "Failed to read batch payload" "Trailing BatchedTokenRequest data" _ _ requestDecoder
    requestDecoder_consumes TokenRequest.wire Batchable maxBatchSize BatchedTokenRequest.mk
    (fun _ _ => List.cons_ne_nil _ _) (fun _ room _ batchable => requestDecoder_decodes batchable room)
    requestDecoder_only data ⟨requests⟩
  apply decoded.trans
  constructor
  · intro ⟨values, equal, conditions⟩
    obtain rfl := BatchedTokenRequest.mk.inj equal
    exact conditions
  · exact fun conditions => ⟨requests, rfl, conditions⟩

theorem flatMap_wire_length (requests : List TokenRequest) :
    (requests.flatMap TokenRequest.wire).length = (requests.map TokenRequest.serializedSize).sum := by
  rw [List.length_flatMap]
  simp only [TokenRequest.wire_length]

/-- A batchable request has at least 35 bytes. -/
theorem Batchable.long {request : TokenRequest} (batchable : Batchable request) :
    35 ≤ request.serializedSize := by
  obtain ⟨sized, known⟩ := batchable
  have size : 32 ≤ (TokenTypeInfo.forType request.tokenType).blindedElementSize := by
    unfold TokenTypeInfo.forType at known ⊢
    split_ifs at known ⊢ <;> simp at known ⊢
  rw [← sized] at size
  unfold TokenRequest.serializedSize
  omega

/-- One payload has room for 1872 batchable requests. -/
theorem length_le {requests : List TokenRequest}
    (batchable : ∀ request ∈ requests, Batchable request)
    (short : (requests.map TokenRequest.serializedSize).sum ≤ 65535) : requests.length ≤ 1872 := by
  have total := List.card_nsmul_le_sum (requests.map TokenRequest.serializedSize) 35
    (List.forall_mem_map.mpr fun request member => (batchable request member).long)
  rw [List.length_map, Nat.nsmul_eq_mul] at total
  omega

/-- The requests of an accepted batch are batchable and fit together into one payload. -/
theorem deserialize_only {data : Bytes} {batch : BatchedTokenRequest}
    (success : deserialize data = .ok batch) :
    (∀ request ∈ batch.requests, Batchable request) ∧ batch.payloadSize ≤ 65535 := by
  obtain ⟨batchable, -, word, size, -, small, length, -⟩ := deserialize_iff.mp success
  refine ⟨batchable, ?_⟩
  rw [payloadSize, ← flatMap_wire_length, length]
  exact UInt64.le_iff_toNat_le.mp small

/-- Batchable requests that fit into one payload are decoded from it. -/
theorem deserialize_wire {requests : List TokenRequest}
    (batchable : ∀ request ∈ requests, Batchable request) (few : requests.length ≤ maxBatchSize)
    (short : (requests.map TokenRequest.serializedSize).sum ≤ 65535) :
    deserialize (payloadWire (requests.flatMap TokenRequest.wire)) = .ok ⟨requests⟩ := by
  rw [← flatMap_wire_length] at short
  exact deserialize_iff.mpr ⟨batchable, few, payloadForm_wire (by omega) short⟩

end BatchedTokenRequest

theorem BlindRsaTokenResponse.deserialize_sized {data : Bytes} (size : data.length = 256) :
    deserialize data = .ok ⟨data⟩ := by
  rw [deserialize, if_neg (not_not.mpr size)]

theorem VoprfTokenResponse.deserialize_sized {element proof : Bytes} (elementSize : element.length = 49)
    (proofSize : proof.length = 96) : deserialize (element ++ proof) = .ok ⟨element, proof⟩ := by
  have size : (element ++ proof).length = expectedSize := by
    rw [List.length_append, elementSize, proofSize]
    rfl
  rw [deserialize, if_neg (not_not.mpr size), List.take_left' elementSize, List.drop_left' elementSize]

namespace TokenResponse

def contentWire : TokenResponseContent → Bytes
  | .blindRsa content => content.blindSig
  | .voprf content => content.evaluateMsg ++ content.evaluateProof

theorem serialize_eq (response : TokenResponse) :
    response.serialize = .ok (contentWire response.response) := by
  rcases response with ⟨type, content | content⟩ <;> rfl

/-- The content belongs to the type and has the size of its format. -/
def Sized (response : TokenResponse) : Prop :=
  match response.response with
  | .blindRsa content => (response.tokenType = .blindRsa ∨ response.tokenType = .partiallyBlindRsa) ∧
      content.blindSig.length = 256
  | .voprf content => response.tokenType = .voprfP384Sha384 ∧ content.evaluateMsg.length = 49 ∧
      content.evaluateProof.length = 96

theorem contentWire_length {response : TokenResponse} (sized : response.Sized) :
    (contentWire response.response).length = BatchedTokenResponse.contentSize response.tokenType := by
  rcases response with ⟨type, content | content⟩
  · obtain ⟨rfl | rfl, size⟩ := sized <;> exact size
  · obtain ⟨rfl, element, proof⟩ := sized
    rw [contentWire, List.length_append, element, proof]
    rfl

theorem authenticatorSize_ne_zero {response : TokenResponse} (sized : response.Sized) :
    (TokenTypeInfo.forType response.tokenType).authenticatorSize ≠ 0 := by
  rcases response with ⟨type, content | content⟩
  · obtain ⟨rfl | rfl, -⟩ := sized <;> exact Nat.succ_ne_zero _
  · obtain ⟨rfl, -⟩ := sized
    exact Nat.succ_ne_zero _

/-- A sized response is decoded by a reader that knows its type. -/
theorem deserialize_wire {response : TokenResponse} (sized : response.Sized) :
    deserialize response.tokenType (contentWire response.response) = .ok response := by
  rcases response with ⟨type, content | content⟩
  · obtain ⟨typed, size⟩ := sized
    rw [deserialize, if_pos typed, contentWire, BlindRsaTokenResponse.deserialize_sized size]
    rfl
  · obtain ⟨rfl, element, proof⟩ := sized
    have other : ¬ (TokenType.voprfP384Sha384 = .blindRsa ∨
        TokenType.voprfP384Sha384 = .partiallyBlindRsa) := by decide
    rw [deserialize, if_neg other, if_pos rfl, contentWire,
      VoprfTokenResponse.deserialize_sized element proof]
    rfl

/-- A reader that knows the type accepts nothing but sized responses. -/
theorem deserialize_only {type : TokenType} {data : Bytes} {response : TokenResponse}
    (success : deserialize type data = .ok response) :
    response.tokenType = type ∧ data = contentWire response.response ∧ response.Sized := by
  unfold deserialize at success
  split at success
  · next typed =>
      obtain ⟨content, read, success⟩ := Result.bind_eq_ok.mp success
      obtain rfl := Except.ok.inj success
      unfold BlindRsaTokenResponse.deserialize at read
      split at read
      · cases read
      · next size =>
          obtain rfl := Except.ok.inj read
          exact ⟨rfl, rfl, typed, not_not.mp size⟩
  split at success
  · next typed =>
      obtain ⟨content, read, success⟩ := Result.bind_eq_ok.mp success
      obtain rfl := Except.ok.inj success
      unfold VoprfTokenResponse.deserialize at read
      split at read
      · cases read
      · next size =>
          obtain rfl := Except.ok.inj read
          have length : data.length = 49 + 96 := not_not.mp size
          refine ⟨rfl, (List.take_append_drop 49 data).symm, typed, ?_, ?_⟩
          · exact List.length_take_of_le (by omega)
          · dsimp only
            rw [List.length_drop]
            omega
  · cases success

end TokenResponse

namespace OptionalTokenResponse

def wire : OptionalTokenResponse → Bytes
  | ⟨true, some response⟩ =>
      0x01 :: (u16Bytes response.tokenType.value ++ TokenResponse.contentWire response.response)
  | _ => [0x00]

/-- The response is absent, or it is present and sized. -/
inductive Sized : OptionalTokenResponse → Prop
  | absent : Sized ⟨false, none⟩
  | present {response : TokenResponse} (sized : response.Sized) : Sized ⟨true, some response⟩

theorem wire_length {response : TokenResponse} (sized : response.Sized) :
    (wire ⟨true, some response⟩).length =
      1 + (2 + BatchedTokenResponse.contentSize response.tokenType) := by
  rw [← TokenResponse.contentWire_length sized]
  simp [wire, u16Bytes]
  omega

theorem serialize_eq {optional : OptionalTokenResponse} (sized : optional.Sized) :
    optional.serialize = .ok optional.wire := by
  cases sized with
  | absent => rfl
  | @present response sized =>
      have emits := (ByteWriter.writeU8_appends 0x01).cons
        ((ByteWriter.writeU16_appends response.tokenType.value).cons
          ((ByteWriter.writeBytes_appends (TokenResponse.contentWire response.response)).cons
            ByteWriter.emits_nil))
      rw [serialize]
      dsimp only
      rw [TokenResponse.serialize_eq]
      change Except.ok (ByteWriter.build _) = _
      rw [emits.build, List.append_nil]
      rfl

/-- A sized response is decoded from its wire format. -/
theorem deserialize_wire {optional : OptionalTokenResponse} (sized : optional.Sized) :
    deserialize optional.wire = .ok optional := by
  cases sized with
  | absent => rfl
  | @present response sized =>
      have type := (ByteReader.readU16_reads response.tokenType.value).decodes
        (⟨.unexpectedEnd, "Failed to read token_type"⟩ : Error)
      rw [deserialize, Decoder.run_eq_ok, wire, ← List.singleton_append]
      unfold Cursor.start decoder
      rw [((ByteReader.readU8_reads _).decodes _).bind_apply, Decoder.reject_bind (by decide),
        if_pos rfl, type.bind_apply, Decoder.bind_ok (Decoder.unread_apply _),
        Decoder.bind_ok (Decoder.lift_eq_ok.mpr ⟨TokenResponse.deserialize_wire sized, rfl⟩)]
      exact ⟨_, rfl⟩

theorem wire_ne_nil {optional : OptionalTokenResponse} (sized : optional.Sized) :
    optional.wire ≠ [] := by
  cases sized <;> exact List.cons_ne_nil _ _

/-- The decoder accepts nothing but sized responses in their wire format. -/
theorem deserialize_only {data : Bytes} {optional : OptionalTokenResponse}
    (success : deserialize data = .ok optional) : data = optional.wire ∧ optional.Sized := by
  obtain ⟨final, success⟩ := Decoder.run_eq_ok.mp success
  obtain ⟨status, afterStatus, _, rfl, statusRest, success⟩ :=
    ByteReader.readU8_only.bind_eq_ok success
  obtain ⟨valid, success⟩ := Decoder.reject_bind_eq_ok success
  change data = _ at statusRest
  split at success
  · next present =>
      obtain ⟨type, afterType, _, rfl, typeRest, success⟩ :=
        ByteReader.readU16_only.bind_eq_ok success
      obtain ⟨remaining, moved, unread, success⟩ := Decoder.bind_eq_ok.mp success
      cases unread
      obtain ⟨response, last, decoded, success⟩ := Decoder.bind_eq_ok.mp success
      obtain ⟨read, rfl⟩ := Decoder.lift_eq_ok.mp decoded
      obtain ⟨rfl, rfl⟩ := Decoder.pure_eq_ok.mp success
      obtain ⟨typed, content, sized⟩ := TokenResponse.deserialize_only read
      refine ⟨?_, .present sized⟩
      rw [statusRest, typeRest, content, present, wire, typed]
      rfl
  · next other =>
      obtain ⟨done, success⟩ := Decoder.finish_bind_eq_ok success
      obtain ⟨rfl, rfl⟩ := Decoder.pure_eq_ok.mp success
      have absent : status = 0x00 := by
        by_contra different
        exact valid ⟨different, other⟩
      refine ⟨?_, .absent⟩
      rw [statusRest, done, absent]
      rfl

end OptionalTokenResponse

namespace BatchedTokenResponse

/-- A sized response is decoded wherever it stands in the payload. -/
theorem responseDecoder_decodes {optional : OptionalTokenResponse} (sized : optional.Sized)
    {count : Nat} (room : count < maxResponseBatchSize) :
    Decodes (responseDecoder count) optional.wire optional := by
  have cut {size : Nat} (length : optional.wire.length = size) :
      Decodes (cutResponse size) optional.wire optional := by
    subst length
    intro before rest
    rw [cutResponse, ((ByteReader.readBytes_reads optional.wire).decodes _).bind_apply,
      OptionalTokenResponse.deserialize_wire sized]
    rfl
  intro before rest
  rw [responseDecoder, Decoder.reject_bind (Nat.not_le.mpr room),
    Decoder.bind_ok (Decoder.unread_apply _)]
  cases sized with
  | absent =>
      have whole := cut rfl before rest
      dsimp only [OptionalTokenResponse.wire, List.cons_append, List.nil_append] at whole ⊢
      rw [if_neg (by decide), Decoder.reject_bind (by decide)]
      exact whole
  | @present response sized =>
      have whole := cut (OptionalTokenResponse.wire_length sized) before rest
      dsimp only [OptionalTokenResponse.wire, u16Bytes, List.cons_append, List.nil_append] at whole ⊢
      rw [if_pos rfl, ByteReader.u16Bytes_join,
        Decoder.reject_bind (TokenResponse.authenticatorSize_ne_zero sized)]
      exact whole

theorem cutResponse_only (size : Nat) : DecodesOnly (cutResponse size) fun word optional =>
    word = optional.wire ∧ optional.Sized := by
  intro cursor optional final success
  obtain ⟨data, last, _, ⟨rfl, -⟩, rest, success⟩ := (ByteReader.readBytes_only size).bind_eq_ok success
  obtain ⟨decoded, rfl⟩ := Decoder.lift_eq_ok.mp success
  exact ⟨_, OptionalTokenResponse.deserialize_only decoded, rest⟩

/-- Whatever the front of a response says, only a sized response is decoded. -/
theorem responseDecoder_only (count : Nat) : DecodesOnly (responseDecoder count) fun word optional =>
    word = optional.wire ∧ count < maxResponseBatchSize ∧ optional.Sized := by
  intro cursor optional final success
  obtain ⟨room, success⟩ := Decoder.reject_bind_eq_ok success
  obtain ⟨remaining, moved, unread, success⟩ := Decoder.bind_eq_ok.mp success
  cases unread
  have cut {size : Nat} (step : cutResponse size cursor = (.ok optional, final)) :
      ∃ word, (word = optional.wire ∧ count < maxResponseBatchSize ∧ optional.Sized) ∧
        cursor.rest = word ++ final.rest := by
    obtain ⟨word, ⟨equal, sized⟩, rest⟩ := cutResponse_only size cursor optional final step
    exact ⟨word, ⟨equal, Nat.not_le.mp room, sized⟩, rest⟩
  rcases shape : cursor.rest with _ | ⟨status, more⟩ <;> rw [shape] at success
  · cases success
  · rw [← shape]
    dsimp only at success
    split at success
    · split at success
      · exact cut (Decoder.reject_bind_eq_ok success).2
      · cases success
    · exact cut (Decoder.reject_bind_eq_ok success).2

/-- This is the number of bytes of the responses on the wire. -/
def payloadSize (responses : List OptionalTokenResponse) : Nat :=
  (responses.map fun response => response.wire.length).sum

theorem serializeAll_eq {responses : List OptionalTokenResponse}
    (sized : ∀ response ∈ responses, response.Sized) {start : Nat}
    (fits : start + payloadSize responses ≤ sizeMax) :
    serializeAll start responses =
      .ok (responses.map OptionalTokenResponse.wire, start + payloadSize responses) := by
  induction responses generalizing start with
  | nil => rfl
  | cons head tail ih =>
      have step : payloadSize (head :: tail) = head.wire.length + payloadSize tail := by
        simp [payloadSize]
      rw [step] at fits ⊢
      rw [serializeAll, OptionalTokenResponse.serialize_eq (sized head List.mem_cons_self)]
      change (if start > sizeMax - head.wire.length then _ else _) = _
      rw [if_neg (by omega), ih (fun response member => sized response
        (List.mem_cons_of_mem _ member)) (by omega), ← Nat.add_assoc]
      rfl

section Wire

variable {responses : List OptionalTokenResponse}

theorem flatMap_wire_length :
    (responses.flatMap OptionalTokenResponse.wire).length = payloadSize responses :=
  List.length_flatMap

/-- The responses go to the wire as one payload. -/
theorem serialize_eq (sized : ∀ response ∈ responses, response.Sized)
    (fits : payloadSize responses ≤ sizeMax) :
    serialize ⟨responses⟩ = .ok (payloadWire (responses.flatMap OptionalTokenResponse.wire)) := by
  have all := serializeAll_eq sized (by omega : 0 + payloadSize responses ≤ sizeMax)
  rw [Nat.zero_add, ← flatMap_wire_length, List.flatMap_def] at all
  rw [serialize, all, List.flatMap_def]
  exact congrArg Except.ok (build_payloadWire _)

/-- A batch of responses is decoded from exactly the payloads that join its sized responses. -/
theorem deserialize_iff {data : Bytes} : deserialize data = .ok ⟨responses⟩ ↔
    (∀ response ∈ responses, response.Sized) ∧ responses.length ≤ maxResponseBatchSize ∧
      PayloadForm maxResponseBatchPayloadSize data
        (responses.flatMap OptionalTokenResponse.wire) := by
  have decoded := @batch_iff maxResponseBatchPayloadSize "Failed to read response batch size"
    "Response batch payload too large" "Failed to read response batch payload"
    "Trailing BatchedTokenResponse data" _ _ responseDecoder responseDecoder_consumes
    OptionalTokenResponse.wire OptionalTokenResponse.Sized maxResponseBatchSize BatchedTokenResponse.mk
    (fun _ sized => OptionalTokenResponse.wire_ne_nil sized)
    (fun _ room _ sized => responseDecoder_decodes sized room) responseDecoder_only data ⟨responses⟩
  apply decoded.trans
  constructor
  · intro ⟨values, equal, conditions⟩
    obtain rfl := BatchedTokenResponse.mk.inj equal
    exact conditions
  · exact fun conditions => ⟨responses, rfl, conditions⟩

/-- Sized responses that fit into one payload are decoded from it. -/
theorem deserialize_wire (sized : ∀ response ∈ responses, response.Sized)
    (few : responses.length ≤ maxResponseBatchSize) (short : payloadSize responses ≤ 65535) :
    deserialize (payloadWire (responses.flatMap OptionalTokenResponse.wire)) = .ok ⟨responses⟩ := by
  rw [← flatMap_wire_length] at short
  exact deserialize_iff.mpr ⟨sized, few, payloadForm_wire (by omega) short⟩

/-- Responses that do not fit into one payload are refused. -/
theorem deserialize_large (fits : payloadSize responses < 2 ^ 62)
    (large : 65535 < payloadSize responses) :
    deserialize (payloadWire (responses.flatMap OptionalTokenResponse.wire)) =
      .error ⟨.malformedData, "Response batch payload too large"⟩ := by
  rw [← flatMap_wire_length] at fits large
  exact batch_large fits large

end Wire

end BatchedTokenResponse
end PrivacyPass
