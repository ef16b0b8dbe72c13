import PrivacyPass.Construction.Crypto.BlindRsa

/-
This file models the signatures that the holder of an RSA key makes without blinding.
-/

namespace PrivacyPass.Crypto

/-- The crypto library signs with a salt that it draws itself. -/
class SigningBackend extends RsaBackend where
  digestSign : EvpPkey → (msg salt : Bytes) → Option Bytes

/-- The digest and the padding are set up for the key before it signs the message. -/
def BlindRsaPrivateKey.sign [SigningBackend] (key : BlindRsaPrivateKey) (msg salt : Bytes) :
    Result Bytes :=
  match key.pkey with
  | none => .error ⟨.invalidKey, "Key not initialized"⟩
  | some pkey =>
      match SigningBackend.digestSign pkey msg salt with
      | none => .error ⟨.cryptoError, "Sign failed"⟩
      | some signature => .ok signature

end PrivacyPass.Crypto
