import PrivacyPass.Construction.Serialization

/-
This file models the token requests, their batches and their wire formats.
-/

namespace PrivacyPass

open Library

structure TokenRequest where
  tokenType : TokenType
  truncatedTokenKeyId : UInt8
  blindedMsg : Bytes
  deriving DecidableEq

namespace TokenRequest

def create (type : TokenType) (truncatedKeyId : UInt8) (blindedMessage : Bytes) : TokenRequest where
  tokenType := type
  truncatedTokenKeyId := truncatedKeyId
  blindedMsg := blindedMessage

def serializedSize (request : TokenRequest) : Nat := 2 + 1 + request.blindedMsg.length

def serialize (request : TokenRequest) : Result Bytes :=
  .ok <| ByteWriter.build [ByteWriter.writeU16 request.tokenType.value,
    ByteWriter.writeU8 request.truncatedTokenKeyId, ByteWriter.writeBytes request.blindedMsg]

/-- The size of the blinded message depends on the token type, and an unknown type has none. -/
def decoder : ByteDecoder TokenRequest := do
  let type ← .ofRead ByteReader.readU16 ⟨.unexpectedEnd, "Failed to read token_type"⟩
  let keyId ← .ofRead ByteReader.readU8 ⟨.unexpectedEnd, "Failed to read key_id"⟩
  let blindedSize := (TokenTypeInfo.forType ⟨type⟩).blindedElementSize
  let remaining ← .unread
  .reject (remaining.length < blindedSize)
    ⟨.unexpectedEnd, "Insufficient data for blinded_msg"⟩
  let blinded ← .ofRead (ByteReader.readBytes blindedSize)
    ⟨.unexpectedEnd, "Failed to read blinded_msg"⟩
  .finish ⟨.malformedData, "Trailing TokenRequest data"⟩
  pure (create ⟨type⟩ keyId blinded)

def deserialize (data : Bytes) : Result TokenRequest := decoder.run data

end TokenRequest

/-- Both kinds of batches put their items into one payload behind its size, and nothing follows it. -/
def payloadDecoder (maxPayloadSize : UInt64)
    (sizeMessage largeMessage payloadMessage trailingMessage : String) : ByteDecoder Bytes := do
  let payloadSize ← .ofRead ByteReader.readVarint ⟨.unexpectedEnd, sizeMessage⟩
  .reject (payloadSize > maxPayloadSize) ⟨.malformedData, largeMessage⟩
  let payload ← .ofRead (ByteReader.readBytes payloadSize.toNat) ⟨.unexpectedEnd, payloadMessage⟩
  .finish ⟨.malformedData, trailingMessage⟩
  pure payload

structure BatchedTokenRequest where
  requests : List TokenRequest
  deriving DecidableEq

namespace BatchedTokenRequest

def payloadSize (batch : BatchedTokenRequest) : Nat :=
  (batch.requests.map TokenRequest.serializedSize).sum

def serializedSize (batch : BatchedTokenRequest) : Nat :=
  varintSize batch.payloadSize.toUInt64 + batch.payloadSize

def serialize (batch : BatchedTokenRequest) : Result Bytes := do
  let requests ← batch.requests.mapM TokenRequest.serialize
  .ok <| ByteWriter.build <|
    ByteWriter.writeVarint batch.payloadSize.toUInt64 :: requests.map ByteWriter.writeBytes

def maxBatchSize : Nat := 10000

def maxBatchPayloadSize : UInt64 := 65535

/-- The type at the front of a request decides how many bytes belong to it. -/
def requestDecoder (count : Nat) : ByteDecoder TokenRequest := do
  .reject (count ≥ maxBatchSize) ⟨.malformedData, "Batch size exceeds maximum"⟩
  let remaining ← .unread
  match remaining with
  | high :: low :: _ :: _ => do
      let info := TokenTypeInfo.forType ⟨(high.toUInt16 <<< 8) ||| low.toUInt16⟩
      .reject (info.blindedElementSize = 0)
        ⟨.unsupportedTokenType, "Unsupported batched request token type"⟩
      let requestBytes ← .ofRead (ByteReader.readBytes (2 + 1 + info.blindedElementSize))
        ⟨.unexpectedEnd, "Failed to read request"⟩
      .lift (TokenRequest.deserialize requestBytes)
  | _ => throw ⟨.unexpectedEnd, "Failed to read request header"⟩

theorem requestDecoder_consumes (count : Nat) : Consumes (requestDecoder count) := by
  refine .reject_bind (.unread_bind fun remaining => ?_)
  split
  · exact .reject_bind ((ByteReader.readBytes_consumes (by omega) _).bind_lift _)
  · exact consumes_throw _

def decoder : ByteDecoder BatchedTokenRequest := do
  let payload ← payloadDecoder maxBatchPayloadSize "Failed to read batch size"
    "Batch payload too large" "Failed to read batch payload" "Trailing BatchedTokenRequest data"
  let requests ← .lift
    ((Decoder.untilEmpty requestDecoder requestDecoder_consumes 0 (.start payload)).1)
  pure ⟨requests⟩

def deserialize (data : Bytes) : Result BatchedTokenRequest := decoder.run data

end BatchedTokenRequest
end PrivacyPass
