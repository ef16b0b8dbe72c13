import PrivacyPass.Construction.Crypto.Bignum
import PrivacyPass.Construction.Crypto.Hash

/-
This file models the Blind RSA keys over the numbers and the key codecs of the crypto library.
-/

namespace PrivacyPass.Crypto

open Library

/-- A key of the crypto library is described by the values that its users query. -/
structure EvpPkey where
  rsaPss : Bool
  n : Nat
  e : Nat
  d : Option Nat
  saltLength : Option Nat
  digest : Option String
  mgf1Digest : Option String
  deriving DecidableEq, Repr

/-- The crypto library encodes keys, pads messages and checks signatures. -/
class RsaBackend extends HashBackend where
  parsePublicKeySpki : Bytes → Option EvpPkey
  marshalPublicKey : EvpPkey → Option Bytes
  paddingAddPkcs1Pss : EvpPkey → Hash384 → (salt : Bytes) → Option Bytes
  digestVerify : EvpPkey → (msg signature : Bytes) → Option Bool

def rsaModulusSize : Nat := 256
def rsaPublicExponent : Nat := 65537
def rsaBits : Nat := 2048
def saltLength : Nat := 48

variable [RsaBackend]

def sanitizedError : String := "Cryptographic operation failed"

def acceptedDigest (name : Option String) : Bool :=
  name = some "SHA384" || name = some "SHA-384" || name = some "SHA2-384"

def validateRsaParams (pkey : EvpPkey) (expectedBits expectedE : Nat) : Result Unit :=
  if pkey.rsaPss = false then .error ⟨.invalidKey, "Not an RSASSA-PSS key"⟩
  else if bnNumBits pkey.n ≠ expectedBits ∨ pkey.e ≠ expectedE then
    .error ⟨.invalidKey, "RSA key must be RSA-2048 with exponent 65537"⟩
  else if pkey.saltLength ≠ some 48 then
    .error ⟨.invalidKey, "RSASSA-PSS key must use 48-byte salt"⟩
  else if acceptedDigest pkey.digest = false ∨ acceptedDigest pkey.mgf1Digest = false then
    .error ⟨.invalidKey, "RSASSA-PSS key must use SHA-384 and MGF1-SHA-384"⟩
  else .ok ()

def marshalPublicKey (pkey : EvpPkey) : Result Bytes :=
  match RsaBackend.marshalPublicKey pkey with
  | some spki => .ok spki
  | none => .error ⟨.cryptoError, "Failed to compute SPKI size"⟩

/-- The encoding draws its salt at random. -/
def emsaPssEncode (pkey : EvpPkey) (msg salt : Bytes) : Result Bytes := do
  let hash ← sha384 msg
  match RsaBackend.paddingAddPkcs1Pss pkey hash salt with
  | some encoded => .ok encoded
  | none => .error ⟨.cryptoError, sanitizedError⟩

/-- The blinding data is kept by the client until the signature comes back. -/
structure BlindingData where
  inverse : Bytes := []
  blindedMsg : Bytes := []
  deriving DecidableEq, Repr

/-- A moved-from or default key has no handle. -/
structure BlindRsaPublicKey where
  pkey : Option EvpPkey := none
  originalSpki : Bytes := []
  deriving DecidableEq, Repr

namespace BlindRsaPublicKey

def fromSpki (spki : Bytes) : Result BlindRsaPublicKey :=
  if spki.length > maxInputSize then .error ⟨.invalidKey, "SPKI data too large"⟩
  else
    match RsaBackend.parsePublicKeySpki spki with
    | none => .error ⟨.invalidKey, sanitizedError⟩
    | some pkey =>
        match validateRsaParams pkey rsaBits rsaPublicExponent with
        | .error error => .error error
        | .ok () => .ok ⟨some pkey, spki⟩

def toSpki (key : BlindRsaPublicKey) : Result Bytes :=
  match key.pkey with
  | none => .error ⟨.invalidKey, "Key not initialized"⟩
  | some pkey => marshalPublicKey pkey

/-- The id is the digest of the bytes that the key was read from, or else of its encoding. -/
def keyId (key : BlindRsaPublicKey) : Result TokenKeyId :=
  if key.originalSpki.isEmpty then do
    let spki ← key.toSpki
    sha256 spki
  else sha256 key.originalSpki

/-- The loop draws until the number is invertible, and an exhausted source ends it. -/
def drawBlind (n : Nat) : List Nat → Option (Nat × Nat)
  | [] => none
  | r :: draws =>
      if r = 0 then drawBlind n draws
      else
        match bnModInverse r n with
        | some inverse => some (r, inverse)
        | none => drawBlind n draws

def blind (key : BlindRsaPublicKey) (msg salt : Bytes) (draws : List Nat) : Result BlindingData := do
  let some pkey := key.pkey | .error ⟨.invalidKey, "Key not initialized"⟩
  let modSize := bnNumBytes pkey.n
  if modSize ≠ rsaModulusSize then
    .error ⟨.invalidKey, "Unexpected RSA modulus size"⟩
  else
    let encoded ← emsaPssEncode pkey msg salt
    let m := BigEndian.ofBytes encoded
    if bnMontCtxSet pkey.n = false then
      .error ⟨.cryptoError, "Failed to create Montgomery context"⟩
    else
      match drawBlind pkey.n draws with
      | none => .error ⟨.blindingFailed, "Failed to generate r"⟩
      | some (r, rInv) =>
          match (bnModExpMont r pkey.e pkey.n).bind fun x => bnModMulMontgomery m x pkey.n with
          | none => .error ⟨.blindingFailed, "Failed to blind message"⟩
          | some blinded =>
              match bnBn2BinPad rInv modSize, bnBn2BinPad blinded modSize with
              | some inverse, some blindedMsg => .ok ⟨inverse, blindedMsg⟩
              | _, _ => .error ⟨.blindingFailed, "Failed to serialize"⟩

def verify (key : BlindRsaPublicKey) (msg signature : Bytes) : Result Bool :=
  match key.pkey with
  | none => .error ⟨.invalidKey, "Key not initialized"⟩
  | some pkey =>
      match RsaBackend.digestVerify pkey msg signature with
      | none => .error ⟨.verificationFailed, "Verification setup failed"⟩
      | some result => .ok result

/-- The inverse is cleared once the signature is unblinded, before the final check. -/
def finalize (key : BlindRsaPublicKey) (blindSig : Bytes) (blindingData : BlindingData)
    (msg : Bytes) : Result Bytes × BlindingData :=
  match key.pkey with
  | none => (.error ⟨.invalidKey, "Key not initialized"⟩, blindingData)
  | some pkey =>
      if blindSig.length > maxInputSize ∨ blindingData.inverse.length > maxInputSize then
        (.error ⟨.cryptoError, "Input too large"⟩, blindingData)
      else
        let modSize := bnNumBytes pkey.n
        if modSize ≠ rsaModulusSize then
          (.error ⟨.invalidKey, "Unexpected RSA modulus size"⟩, blindingData)
        else if blindSig.length ≠ modSize ∨ blindingData.inverse.length ≠ modSize then
          (.error ⟨.invalidLength, "Blind signature and inverse must match modulus length"⟩,
            blindingData)
        else
          let z := BigEndian.ofBytes blindSig
          let rInv := BigEndian.ofBytes blindingData.inverse
          if z = 0 ∨ z ≥ pkey.n then
            (.error ⟨.unblindingFailed, "Blind signature out of range"⟩, blindingData)
          else
            match bnModMulMontgomery z rInv pkey.n with
            | none => (.error ⟨.unblindingFailed, "Failed to unblind"⟩, blindingData)
            | some sig =>
                let result := BigEndian.toBytes modSize sig
                let cleared := { blindingData with inverse := [] }
                match key.verify msg result with
                | .ok true => (.ok result, cleared)
                | _ => (.error ⟨.verificationFailed, "Unblinded signature verification failed"⟩,
                    cleared)

end BlindRsaPublicKey

structure BlindRsaPrivateKey where
  pkey : Option EvpPkey := none
  deriving DecidableEq, Repr

namespace BlindRsaPrivateKey

def publicKey (key : BlindRsaPrivateKey) : Result BlindRsaPublicKey :=
  match key.pkey with
  | none => .error ⟨.invalidKey, "Key not initialized"⟩
  | some pkey =>
      match marshalPublicKey pkey with
      | .error error => .error error
      | .ok spki => BlindRsaPublicKey.fromSpki spki

def blindSign (key : BlindRsaPrivateKey) (blindedMsg : Bytes) : Result Bytes :=
  match key.pkey with
  | none => .error ⟨.invalidKey, "Key not initialized"⟩
  | some pkey =>
      if blindedMsg.length > maxInputSize then .error ⟨.cryptoError, "Blinded message too large"⟩
      else
        match pkey.d with
        | none => .error ⟨.cryptoError, "Failed to get key parameters"⟩
        | some d =>
            let modSize := bnNumBytes pkey.n
            if modSize ≠ rsaModulusSize then
              .error ⟨.invalidKey, "Unexpected RSA modulus size"⟩
            else if blindedMsg.length ≠ modSize then
              .error ⟨.invalidLength, "Blinded message must match RSA modulus size"⟩
            else
              let m := BigEndian.ofBytes blindedMsg
              if m = 0 ∨ m ≥ pkey.n then
                .error ⟨.invalidLength, "Blinded message representative out of range"⟩
              else if bnMontCtxSet pkey.n = false then
                .error ⟨.cryptoError, "Failed to create Montgomery context"⟩
              else
                match bnModExpMont m d pkey.n with
                | none => .error ⟨.cryptoError, "Blind sign failed"⟩
                | some sig => .ok (BigEndian.toBytes modSize sig)

end BlindRsaPrivateKey
end PrivacyPass.Crypto
