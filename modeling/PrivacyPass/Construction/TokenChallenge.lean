import Mathlib.Data.List.Basic
import PrivacyPass.Construction.Crypto.Hash
import PrivacyPass.Construction.Serialization

/-
This file models the token challenge and its wire format.
-/

namespace PrivacyPass

open Library

structure TokenChallenge where
  tokenType : TokenType
  issuerName : Bytes
  redemptionContext : Option ChallengeDigest
  originInfo : List Bytes
  cachedDigest : Option ChallengeDigest := none
  deriving DecidableEq

namespace TokenChallenge

def create (type : TokenType) (issuer : Bytes) (context : Option ChallengeDigest)
    (origins : List Bytes) : TokenChallenge where
  tokenType := type
  issuerName := issuer
  redemptionContext := context
  originInfo := origins

/-- The character `,` separates the entries on the wire. -/
def comma : UInt8 := 0x2C

def originInfoString (challenge : TokenChallenge) : Bytes :=
  [comma].intercalate challenge.originInfo

def serializedSize (challenge : TokenChallenge) : Nat :=
  2 + (2 + challenge.issuerName.length) + 1 + (if challenge.redemptionContext.isSome then 32 else 0) +
    (2 + ((challenge.originInfo.map List.length).sum + (challenge.originInfo.length - 1)))

/-- This is the loop of the join, which puts a comma before each entry but the first. -/
def appendOrigins : Nat → Bytes → List Bytes → Bytes
  | _, result, [] => result
  | index, result, origin :: origins =>
      appendOrigins (index + 1) ((if index > 0 then result ++ [comma] else result) ++ origin) origins

/-- This is the loop of the size, which counts the commas without a join. -/
def countOrigins : Nat → Nat → List Bytes → Nat
  | _, originLen, [] => originLen
  | index, originLen, origin :: origins =>
      countOrigins (index + 1) ((if index > 0 then originLen + 1 else originLen) + origin.length) origins

/-- This is the size as its loop computes it. -/
def countedSize (challenge : TokenChallenge) : Nat :=
  2 + (2 + challenge.issuerName.length) + 1 + (if challenge.redemptionContext.isSome then 32 else 0) +
    (2 + countOrigins 0 0 challenge.originInfo)

def writeContext : Option ChallengeDigest → List Write
  | some context => [ByteWriter.writeU8 32, ByteWriter.writeArray context]
  | none => [ByteWriter.writeU8 0]

def serialize (challenge : TokenChallenge) : Result Bytes :=
  if challenge.issuerName.isEmpty || challenge.issuerName.length > 0xFFFF then
    .error ⟨.invalidLength, "issuer_name length must be 1..65535"⟩
  else
    let originStr := challenge.originInfoString
    if originStr.length > 0xFFFF then
      .error ⟨.invalidLength, "origin_info length must be <= 65535"⟩
    else
      .ok <| ByteWriter.build <|
        [ByteWriter.writeU16 challenge.tokenType.value,
          ByteWriter.writeU16 challenge.issuerName.length.toUInt16,
          ByteWriter.writeBytes challenge.issuerName] ++
        writeContext challenge.redemptionContext ++
        [ByteWriter.writeU16 originStr.length.toUInt16] ++
        if originStr.isEmpty then [] else [ByteWriter.writeBytes originStr]

def maxOriginEntries : Nat := 100

/-- The decoder drops empty entries. -/
def pushEntry (entries : List Bytes) (entry : Bytes) : List Bytes :=
  if entry.isEmpty then entries else entries ++ [entry]

/-- The loop cuts the text at each comma and stops at the first text without one. -/
def splitOriginInfo (entries : List Bytes) (text : Bytes) : Result (List Bytes) :=
  if text = [] then .ok entries
  else if entries.length ≥ maxOriginEntries then
    .error ⟨.malformedData, "Too many origin_info entries (max 100)"⟩
  else
    let entry := text.takeWhile (· != comma)
    match _cut : text.dropWhile (· != comma) with
    | [] => .ok (pushEntry entries entry)
    | _ :: rest => splitOriginInfo (pushEntry entries entry) rest
termination_by text.length
decreasing_by
  have shorter := (List.dropWhile_sublist (l := text) (· != comma)).length_le
  rw [_cut, List.length_cons] at shorter
  omega

/-- The context is absent or has exactly 32 bytes. -/
def contextDecoder : ByteDecoder (Option ChallengeDigest) := do
  let contextLen ← .ofRead ByteReader.readU8
    ⟨.unexpectedEnd, "Failed to read redemption_context length"⟩
  .reject (contextLen ≠ 0 ∧ contextLen ≠ 32)
    ⟨.invalidLength, "redemption_context length must be 0 or 32"⟩
  if contextLen = 32 then do
    let context ← .ofRead (ByteReader.readArray 32)
      ⟨.unexpectedEnd, "Failed to read redemption_context"⟩
    pure (some context)
  else pure none

def originInfoDecoder : ByteDecoder (List Bytes) := do
  let originLen ← .ofRead ByteReader.readU16
    ⟨.unexpectedEnd, "Failed to read origin_info length"⟩
  if originLen > 0 then do
    let originStr ← .ofRead (ByteReader.readBytes originLen.toNat)
      ⟨.unexpectedEnd, "Failed to read origin_info"⟩
    .lift (splitOriginInfo [] originStr)
  else pure []

def decoder : ByteDecoder TokenChallenge := do
  let type ← .ofRead ByteReader.readU16 ⟨.unexpectedEnd, "Failed to read token_type"⟩
  let issuerLen ← .ofRead ByteReader.readU16
    ⟨.unexpectedEnd, "Failed to read issuer_name length"⟩
  let issuerBytes ← .ofRead (ByteReader.readBytes issuerLen.toNat)
    ⟨.unexpectedEnd, "Failed to read issuer_name"⟩
  .reject (issuerLen = 0) ⟨.invalidLength, "issuer_name must not be empty"⟩
  let context ← contextDecoder
  let origins ← originInfoDecoder
  .finish ⟨.malformedData, "Trailing TokenChallenge data"⟩
  pure (create ⟨type⟩ issuerBytes context origins)

def deserialize (data : Bytes) : Result TokenChallenge := decoder.run data

/-- A filled cache answers without a look at the fields. -/
def digest [Crypto.HashBackend] (challenge : TokenChallenge) :
    Result ChallengeDigest × TokenChallenge :=
  match challenge.cachedDigest with
  | some digest => (.ok digest, challenge)
  | none =>
      match challenge.serialize with
      | .error error => (.error error, challenge)
      | .ok serialized =>
          match Crypto.sha256 serialized with
          | .ok hash => (.ok hash, { challenge with cachedDigest := some hash })
          | .error error => (.error error, challenge)

end TokenChallenge
end PrivacyPass
