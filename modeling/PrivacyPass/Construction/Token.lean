import PrivacyPass.Construction.Serialization

/-
This file models tokens, the input of their authenticators and their wire formats.
-/

namespace PrivacyPass

open Library

structure AuthenticatorInput where
  tokenType : TokenType
  nonce : Nonce
  challengeDigest : ChallengeDigest
  tokenKeyId : TokenKeyId
  deriving DecidableEq

namespace AuthenticatorInput

def serializedSize (_input : AuthenticatorInput) : Nat := 2 + 32 + 32 + 32

def calls (input : AuthenticatorInput) : List Write :=
  [ByteWriter.writeU16 input.tokenType.value, ByteWriter.writeArray input.nonce,
    ByteWriter.writeArray input.challengeDigest, ByteWriter.writeArray input.tokenKeyId]

def serialize (input : AuthenticatorInput) : Result Bytes := .ok (ByteWriter.build input.calls)

/-- The decoder leaves trailing data unread. -/
def decoder : ByteDecoder AuthenticatorInput := do
  let type ← .ofRead ByteReader.readU16 ⟨.unexpectedEnd, "Failed to read token_type"⟩
  let nonce ← .ofRead (ByteReader.readArray 32) ⟨.unexpectedEnd, "Failed to read nonce"⟩
  let digest ← .ofRead (ByteReader.readArray 32)
    ⟨.unexpectedEnd, "Failed to read challenge_digest"⟩
  let keyId ← .ofRead (ByteReader.readArray 32) ⟨.unexpectedEnd, "Failed to read token_key_id"⟩
  pure ⟨⟨type⟩, nonce, digest, keyId⟩

def deserialize (data : Bytes) : Result AuthenticatorInput := decoder.run data

end AuthenticatorInput

structure Token where
  tokenType : TokenType
  nonce : Nonce
  challengeDigest : ChallengeDigest
  tokenKeyId : TokenKeyId
  authenticator : Bytes
  deriving DecidableEq

namespace Token

def create (type : TokenType) (nonce : Nonce) (digest : ChallengeDigest) (keyId : TokenKeyId)
    (auth : Bytes) : Token := ⟨type, nonce, digest, keyId, auth⟩

def serializedSize (token : Token) : Nat := 2 + 32 + 32 + 32 + token.authenticator.length

def authenticatorInput (token : Token) : AuthenticatorInput :=
  ⟨token.tokenType, token.nonce, token.challengeDigest, token.tokenKeyId⟩

def serialize (token : Token) : Result Bytes :=
  .ok <| ByteWriter.build
    [ByteWriter.writeU16 token.tokenType.value, ByteWriter.writeArray token.nonce,
      ByteWriter.writeArray token.challengeDigest, ByteWriter.writeArray token.tokenKeyId,
      ByteWriter.writeBytes token.authenticator]

def isValidTokenType (type : UInt16) : Bool :=
  (⟨type⟩ : TokenType) = .voprfP384Sha384 || (⟨type⟩ : TokenType) = .blindRsa ||
    (⟨type⟩ : TokenType) = .voprfRistretto255Sha512 || (⟨type⟩ : TokenType) = .partiallyBlindRsa ||
    (⟨type⟩ : TokenType) = .arcP256

def decoder : ByteDecoder Token := do
  let type ← .ofRead ByteReader.readU16 ⟨.unexpectedEnd, "Failed to read token_type"⟩
  .reject (isValidTokenType type = false)
    ⟨.unsupportedTokenType, "Unknown token type: " ++ toString type⟩
  let nonce ← .ofRead (ByteReader.readArray 32) ⟨.unexpectedEnd, "Failed to read nonce"⟩
  let digest ← .ofRead (ByteReader.readArray 32)
    ⟨.unexpectedEnd, "Failed to read challenge_digest"⟩
  let keyId ← .ofRead (ByteReader.readArray 32) ⟨.unexpectedEnd, "Failed to read token_key_id"⟩
  let info := TokenTypeInfo.forType ⟨type⟩
  .reject (info.authenticatorSize = 0)
    ⟨.unsupportedTokenType, "Token type has no authenticator size defined"⟩
  let unread ← .unread
  .reject (unread.length < info.authenticatorSize)
    ⟨.unexpectedEnd, "Insufficient data for authenticator"⟩
  let auth ← .ofRead (ByteReader.readBytes info.authenticatorSize)
    ⟨.unexpectedEnd, "Failed to read authenticator"⟩
  .finish ⟨.malformedData, "Trailing Token data"⟩
  pure ⟨⟨type⟩, nonce, digest, keyId, auth⟩

def deserialize (data : Bytes) : Result Token := decoder.run data

def validate (token : Token) : Result Unit :=
  let info := TokenTypeInfo.forType token.tokenType
  if info.authenticatorSize = 0 then .error ⟨.unsupportedTokenType, "Unknown token type"⟩
  else if token.authenticator.length ≠ info.authenticatorSize then
    .error ⟨.tokenMalformed, "Invalid authenticator size"⟩
  else .ok ()

end Token
end PrivacyPass
