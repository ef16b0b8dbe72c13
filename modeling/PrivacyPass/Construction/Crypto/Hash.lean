import PrivacyPass.Construction.Types

/-
This file models the hash wrappers over the digests of the crypto library.
-/

namespace PrivacyPass.Crypto

/-- The crypto library computes the digests, and a failed call gives no digest. -/
class HashBackend where
  evpSha256 : Bytes → Option Hash256
  evpSha384 : Bytes → Option Hash384

variable [HashBackend]

def sha256 (data : Bytes) : Result Hash256 :=
  match HashBackend.evpSha256 data with
  | some digest => .ok digest
  | none => .error ⟨.cryptoError, "SHA-256 computation failed"⟩

def sha384 (data : Bytes) : Result Hash384 :=
  match HashBackend.evpSha384 data with
  | some digest => .ok digest
  | none => .error ⟨.cryptoError, "SHA-384 computation failed"⟩

end PrivacyPass.Crypto
