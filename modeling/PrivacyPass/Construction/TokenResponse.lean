import PrivacyPass.Construction.TokenRequest

/-
This file models the token responses, their batches and their wire formats.
-/

namespace PrivacyPass

open Library

structure BlindRsaTokenResponse where
  blindSig : Bytes
  deriving DecidableEq

namespace BlindRsaTokenResponse

def serializedSize (response : BlindRsaTokenResponse) : Nat := response.blindSig.length

def serialize (response : BlindRsaTokenResponse) : Result Bytes := .ok response.blindSig

def deserialize (data : Bytes) : Result BlindRsaTokenResponse :=
  if data.length ≠ 256 then .error ⟨.invalidLength, "Blind RSA signature must be 256 bytes"⟩
  else .ok ⟨data⟩

end BlindRsaTokenResponse

structure VoprfTokenResponse where
  evaluateMsg : Bytes
  evaluateProof : Bytes
  deriving DecidableEq

namespace VoprfTokenResponse

def serializedSize (response : VoprfTokenResponse) : Nat :=
  response.evaluateMsg.length + response.evaluateProof.length

def serialize (response : VoprfTokenResponse) : Result Bytes :=
  .ok (response.evaluateMsg ++ response.evaluateProof)

def expectedSize : Nat := 49 + 96

def deserialize (data : Bytes) : Result VoprfTokenResponse :=
  if data.length ≠ expectedSize then .error ⟨.invalidLength, "VOPRF response must be 145 bytes"⟩
  else .ok ⟨data.take 49, data.drop 49⟩

end VoprfTokenResponse

/-- The content of a response is one of the two formats. -/
inductive TokenResponseContent where
  | blindRsa (response : BlindRsaTokenResponse)
  | voprf (response : VoprfTokenResponse)
  deriving DecidableEq

structure TokenResponse where
  tokenType : TokenType
  response : TokenResponseContent
  deriving DecidableEq

namespace TokenResponse

def createBlindRsa (blindSig : Bytes) : TokenResponse := ⟨.blindRsa, .blindRsa ⟨blindSig⟩⟩

def createVoprf (evaluateMsg evaluateProof : Bytes) : TokenResponse :=
  ⟨.voprfP384Sha384, .voprf ⟨evaluateMsg, evaluateProof⟩⟩

def asBlindRsa (response : TokenResponse) : Option BlindRsaTokenResponse :=
  match response.response with
  | .blindRsa content => some content
  | .voprf _ => none

def asVoprf (response : TokenResponse) : Option VoprfTokenResponse :=
  match response.response with
  | .blindRsa _ => none
  | .voprf content => some content

def serializedSize (response : TokenResponse) : Nat :=
  match response.response with
  | .blindRsa content => content.serializedSize
  | .voprf content => content.serializedSize

def serialize (response : TokenResponse) : Result Bytes :=
  match response.response with
  | .blindRsa content => content.serialize
  | .voprf content => content.serialize

/-- The type is not on the wire, so the caller has to know it. -/
def deserialize (type : TokenType) (data : Bytes) : Result TokenResponse :=
  if type = .blindRsa ∨ type = .partiallyBlindRsa then do
    let content ← BlindRsaTokenResponse.deserialize data
    .ok ⟨type, .blindRsa content⟩
  else if type = .voprfP384Sha384 then do
    let content ← VoprfTokenResponse.deserialize data
    .ok ⟨type, .voprf content⟩
  else .error ⟨.unsupportedTokenType, "Unsupported token type"⟩

end TokenResponse

structure OptionalTokenResponse where
  present : Bool := false
  response : Option TokenResponse := none
  deriving DecidableEq

namespace OptionalTokenResponse

def serialize (optional : OptionalTokenResponse) : Result Bytes :=
  match optional.present, optional.response with
  | true, some response => do
      let bytes ← response.serialize
      .ok <| ByteWriter.build [ByteWriter.writeU8 0x01,
        ByteWriter.writeU16 response.tokenType.value, ByteWriter.writeBytes bytes]
  | _, _ => .ok (ByteWriter.build [ByteWriter.writeU8 0x00])

def decoder : ByteDecoder OptionalTokenResponse := do
  let status ← .ofRead ByteReader.readU8 ⟨.unexpectedEnd, "Failed to read status"⟩
  .reject (status ≠ 0x00 ∧ status ≠ 0x01) ⟨.malformedData, "Invalid response status"⟩
  if status = 0x01 then do
    let type ← .ofRead ByteReader.readU16 ⟨.unexpectedEnd, "Failed to read token_type"⟩
    let remaining ← .unread
    let response ← .lift (TokenResponse.deserialize ⟨type⟩ remaining)
    pure ⟨true, some response⟩
  else do
    .finish ⟨.malformedData, "Trailing absent response data"⟩
    pure ⟨false, none⟩

def deserialize (data : Bytes) : Result OptionalTokenResponse := decoder.run data

end OptionalTokenResponse

structure BatchedTokenResponse where
  responses : List OptionalTokenResponse
  deriving DecidableEq

namespace BatchedTokenResponse

/-- This number is the largest value of `size_t`. -/
def sizeMax : Nat := 18446744073709551615

/-- The loop keeps the serialized responses and their total size. -/
def serializeAll (payloadSize : Nat) : List OptionalTokenResponse → Result (List Bytes × Nat)
  | [] => .ok ([], payloadSize)
  | response :: responses => do
      let serialized ← response.serialize
      if payloadSize > sizeMax - serialized.length then
        .error ⟨.invalidLength, "Batch payload size overflow"⟩
      else do
        let (others, total) ← serializeAll (payloadSize + serialized.length) responses
        .ok (serialized :: others, total)

def serialize (batch : BatchedTokenResponse) : Result Bytes := do
  let (responses, payloadSize) ← serializeAll 0 batch.responses
  .ok <| ByteWriter.build <|
    ByteWriter.writeVarint payloadSize.toUInt64 :: responses.map ByteWriter.writeBytes

def maxResponseBatchSize : Nat := 10000

def maxResponseBatchPayloadSize : UInt64 := 65535

/-- The VOPRF response carries its proof beside the element, so its size is not the authenticator's. -/
def contentSize (type : TokenType) : Nat :=
  if type = .voprfP384Sha384 then 145 else (TokenTypeInfo.forType type).authenticatorSize

/-- This decoder cuts off the first bytes as one response. -/
def cutResponse (size : Nat) : ByteDecoder OptionalTokenResponse := do
  let responseBytes ← .ofRead (ByteReader.readBytes size)
    ⟨.unexpectedEnd, "Failed to read response"⟩
  .lift (OptionalTokenResponse.deserialize responseBytes)

/-- The status and the type at the front of a response decide how many bytes belong to it. -/
def responseDecoder (count : Nat) : ByteDecoder OptionalTokenResponse := do
  .reject (count ≥ maxResponseBatchSize) ⟨.malformedData, "Response batch size exceeds maximum"⟩
  let remaining ← .unread
  match remaining with
  | [] => throw ⟨.unexpectedEnd, "Failed to read response status"⟩
  | status :: more =>
      if status = 0x01 then
        match more with
        | high :: low :: _ => do
            let type : TokenType := ⟨(high.toUInt16 <<< 8) ||| low.toUInt16⟩
            .reject ((TokenTypeInfo.forType type).authenticatorSize = 0)
              ⟨.unsupportedTokenType, "Unsupported batched response token type"⟩
            cutResponse (1 + (2 + contentSize type))
        | _ => throw ⟨.unexpectedEnd, "Failed to read response type"⟩
      else do
        .reject (status ≠ 0x00) ⟨.malformedData, "Invalid response status"⟩
        cutResponse 1

theorem cutResponse_consumes {size : Nat} (positive : 0 < size) : Consumes (cutResponse size) :=
  (ByteReader.readBytes_consumes positive _).bind_lift _

theorem responseDecoder_consumes (count : Nat) : Consumes (responseDecoder count) := by
  refine .reject_bind (.unread_bind fun remaining => ?_)
  split
  · exact consumes_throw _
  · split
    · split
      · exact .reject_bind (cutResponse_consumes (by omega))
      · exact consumes_throw _
    · exact .reject_bind (cutResponse_consumes Nat.one_pos)

def decoder : ByteDecoder BatchedTokenResponse := do
  let payload ← payloadDecoder maxResponseBatchPayloadSize "Failed to read response batch size"
    "Response batch payload too large" "Failed to read response batch payload"
    "Trailing BatchedTokenResponse data"
  let responses ← .lift
    ((Decoder.untilEmpty responseDecoder responseDecoder_consumes 0 (.start payload)).1)
  pure ⟨responses⟩

def deserialize (data : Bytes) : Result BatchedTokenResponse := decoder.run data

end BatchedTokenResponse
end PrivacyPass
