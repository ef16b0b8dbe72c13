import PrivacyPass.Construction.Base64Url
import PrivacyPass.Construction.Moq.AuthScope

/-
This file models the authorization info, which is a list of scopes inside an origin info entry.
-/

namespace PrivacyPass.Moq

open Library

structure AuthorizationInfo where
  scopes : List AuthScope
  deriving DecidableEq

namespace AuthorizationInfo

def authorizes (info : AuthorizationInfo) (action : Action) (ns : Namespace) (track : TrackName) :
    Bool := info.scopes.any fun scope => scope.authorizes action ns track

def writeScope (bytes : Bytes) : List Write :=
  [ByteWriter.writeU16 bytes.length.toUInt16, ByteWriter.writeBytes bytes]

/-- Each scope goes to the wire behind its length, and the counts are narrowed without a check. -/
def serialize (info : AuthorizationInfo) : Result Bytes := do
  let scopes ← info.scopes.mapM AuthScope.serialize
  .ok <| ByteWriter.build <|
    ByteWriter.writeU8 info.scopes.length.toUInt8 :: scopes.flatMap writeScope

def scopeDecoder : ByteDecoder AuthScope := do
  let length ← .ofRead ByteReader.readU16 ⟨.unexpectedEnd, "Failed to read scope length"⟩
  let data ← .ofRead (ByteReader.readBytes length.toNat)
    ⟨.unexpectedEnd, "Failed to read scope data"⟩
  .lift (AuthScope.deserialize data)

/-- The decoder ignores the bytes behind the last scope. -/
def decoder : ByteDecoder AuthorizationInfo := do
  let count ← .ofRead ByteReader.readU8 ⟨.unexpectedEnd, "Failed to read scope count"⟩
  let scopes ← scopeDecoder.times count.toNat
  pure ⟨scopes⟩

def deserialize (data : Bytes) : Result AuthorizationInfo := decoder.run data

def encodeForOriginInfo (info : AuthorizationInfo) : Result Bytes := do
  let serialized ← info.serialize
  .ok (Base64Url.encode serialized)

def decodeFromOriginInfo (originInfo : Bytes) : Result AuthorizationInfo := do
  let decoded ← Base64Url.decode originInfo
  deserialize decoded

end AuthorizationInfo
end PrivacyPass.Moq
