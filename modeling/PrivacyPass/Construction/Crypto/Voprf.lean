import PrivacyPass.Construction.Crypto.Bignum
import PrivacyPass.Construction.Crypto.Hash

/-
This file models the VOPRF keys and the server of the VOPRF over the group of the crypto library.
-/

namespace PrivacyPass.Crypto

open Library

/-- The crypto library computes in the group, and a failed call gives no point. -/
class EcBackend extends HashBackend where
  Point : Type
  order : Nat
  octToPoint : Bytes → Option Point
  isOnCurve : Point → Bool
  isAtInfinity : Point → Bool
  pointToOct : Point → Option Bytes
  mul : Nat → Point → Option Point
  mulGenerator : Nat → Option Point
  add : Point → Point → Option Point

def p384ElementSize : Nat := 49
def p384ScalarSize : Nat := 48
def p384ProofSize : Nat := 96

def contextString : Bytes := ascii "OPRFV1-\x01-P384-SHA384"
def dstH2S : Bytes := ascii "HashToScalar-OPRFV1-\x01-P384-SHA384"
def dstChallenge : Bytes := ascii "Challenge"
def dstComposite : Bytes := ascii "Composite"
def dstSeedPrefix : Bytes := ascii "Seed-"

def appendU16 (out : Bytes) (value : Nat) : Bytes :=
  out ++ [(value >>> 8).toUInt8, value.toUInt8]

def appendU16LenPrefixed (out data : Bytes) : Bytes := appendU16 out data.length ++ data

section Expand

variable [HashBackend]

/-- Each block hashes the first block mixed with the block before. -/
def expandBlocks (b0 : Hash384) (dstPrime : Bytes) : Nat → Nat → Hash384 → Result Bytes
  | 0, _, _ => .ok []
  | count + 1, i, previous => do
      let xored := List.zipWith (· ^^^ ·) b0.val previous.val
      let block ← sha384 (xored ++ [i.toUInt8] ++ dstPrime)
      let rest ← expandBlocks b0 dstPrime count (i + 1) block
      .ok (block.val ++ rest)

def expandMessageXmd (msg dst : Bytes) (lenInBytes : Nat) : Result Bytes :=
  if lenInBytes > 255 * 48 ∨ dst.length > 255 then
    .error ⟨.cryptoError, "Invalid expand_message_xmd parameters"⟩
  else do
    let ell := (lenInBytes + 48 - 1) / 48
    let dstPrime := dst ++ [dst.length.toUInt8]
    let zPad := List.replicate 128 (0 : UInt8)
    let lIBStr := [(lenInBytes >>> 8).toUInt8, lenInBytes.toUInt8]
    let b0 ← sha384 (zPad ++ msg ++ lIBStr ++ [0] ++ dstPrime)
    let b1 ← sha384 (b0.val ++ [1] ++ dstPrime)
    let blocks ← expandBlocks b0 dstPrime (ell - 1) 2 b1
    let uniformBytes := b1.val ++ blocks
    .ok (uniformBytes.take lenInBytes ++ List.replicate (lenInBytes - uniformBytes.length) 0)

end Expand

variable [EcBackend]

def pointToBytes (point : EcBackend.Point) : Result Bytes :=
  match EcBackend.pointToOct point with
  | some octets => .ok octets
  | none => .error ⟨.cryptoError, "Failed to get point size"⟩

/-- The parser takes compressed points of the curve and refuses the point at infinity. -/
def bytesToPoint (data : Bytes) : Option EcBackend.Point :=
  if data.length ≠ p384ElementSize ∨ (data.head? ≠ some 0x02 ∧ data.head? ≠ some 0x03) then none
  else
    match EcBackend.octToPoint data with
    | none => none
    | some point =>
        if EcBackend.isOnCurve point = false ∨ EcBackend.isAtInfinity point = true then none
        else some point

section Proof

def hashToScalar (input : Bytes) : Result Nat := do
  let uniform ← expandMessageXmd input dstH2S 72
  .ok (BigEndian.ofBytes uniform % EcBackend.order)

def computeCompositeScalar (B C D : EcBackend.Point) : Result Nat :=
  match pointToBytes B, pointToBytes C, pointToBytes D with
  | .ok Bm, .ok Ci, .ok Di => do
      let seedDst := dstSeedPrefix ++ contextString
      let seedTranscript := appendU16LenPrefixed (appendU16LenPrefixed [] Bm) seedDst
      let seed ← sha384 seedTranscript
      let compositeTranscript := appendU16LenPrefixed (appendU16LenPrefixed
        (appendU16 (appendU16LenPrefixed [] seed.val) 0) Ci) Di ++ dstComposite
      hashToScalar compositeTranscript
  | _, _, _ => .error ⟨.cryptoError, "Failed to serialize composite inputs"⟩

def computeComposites (B C D : EcBackend.Point) : Result (EcBackend.Point × EcBackend.Point) := do
  let di ← computeCompositeScalar B C D
  match EcBackend.mul di C, EcBackend.mul di D with
  | some M, some Z => .ok (M, Z)
  | _, _ => .error ⟨.cryptoError, "Failed to compute composites"⟩

def computeDleqChallenge (B M Z t2 t3 : EcBackend.Point) : Result Nat :=
  match pointToBytes B, pointToBytes M, pointToBytes Z, pointToBytes t2, pointToBytes t3 with
  | .ok Bm, .ok a0, .ok a1, .ok a2, .ok a3 =>
      hashToScalar ([Bm, a0, a1, a2, a3].foldl appendU16LenPrefixed [] ++ dstChallenge)
  | _, _, _, _, _ => .error ⟨.cryptoError, "Failed to serialize challenge inputs"⟩

/-- The loop draws until the scalar is not zero, and an exhausted source ends it. -/
def drawScalar : List Nat → Option Nat
  | [] => none
  | t :: draws => if t = 0 then drawScalar draws else some t

def generateDleqProof (draws : List Nat) (k : Nat) (Y R Z : EcBackend.Point) : Result Bytes := do
  let (M, compositeZ) ← computeComposites Y R Z
  match drawScalar draws with
  | none => .error ⟨.cryptoError, "Failed to generate random scalar"⟩
  | some t =>
      match EcBackend.mulGenerator t with
      | none => .error ⟨.cryptoError, "Failed to compute A"⟩
      | some A =>
          match EcBackend.mul t M with
          | none => .error ⟨.cryptoError, "Failed to compute B"⟩
          | some B => do
              let c ← computeDleqChallenge Y M compositeZ A B
              let ck := c * k % EcBackend.order
              let s := (t + EcBackend.order - ck) % EcBackend.order
              match bnBn2BinPad c p384ScalarSize, bnBn2BinPad s p384ScalarSize with
              | some cBytes, some sBytes => .ok (cBytes ++ sBytes)
              | _, _ => .error ⟨.cryptoError, "Failed to serialize proof"⟩

end Proof

/-- A moved-from or default key has no point. -/
structure VoprfPublicKey where
  point : Option EcBackend.Point := none

namespace VoprfPublicKey

def fromBytes (data : Bytes) : Result VoprfPublicKey :=
  match bytesToPoint data with
  | none => .error ⟨.invalidKey, "Failed to parse public key"⟩
  | some point => .ok ⟨some point⟩

def toBytes (key : VoprfPublicKey) : Result Bytes :=
  match key.point with
  | none => .error ⟨.invalidKey, "Key not initialized"⟩
  | some point => pointToBytes point

def keyId (key : VoprfPublicKey) : Result TokenKeyId := do
  let bytes ← key.toBytes
  sha256 bytes

end VoprfPublicKey

structure VoprfPrivateKey where
  scalar : Option Nat := none

namespace VoprfPrivateKey

def fromBytes (data : Bytes) : Result VoprfPrivateKey :=
  if data.length ≠ p384ScalarSize then .error ⟨.invalidKey, "Invalid private key length"⟩
  else
    let scalar := BigEndian.ofBytes data
    if scalar = 0 ∨ scalar ≥ EcBackend.order then .error ⟨.invalidKey, "Invalid private key scalar"⟩
    else .ok ⟨some scalar⟩

def toBytes (key : VoprfPrivateKey) : Result Bytes :=
  match key.scalar with
  | none => .error ⟨.invalidKey, "Key not initialized"⟩
  | some scalar =>
      match bnBn2BinPad scalar p384ScalarSize with
      | some bytes => .ok bytes
      | none => .error ⟨.cryptoError, "Failed to serialize private key"⟩

def publicKey (key : VoprfPrivateKey) : Result VoprfPublicKey :=
  match key.scalar with
  | none => .error ⟨.invalidKey, "Key not initialized"⟩
  | some scalar =>
      match EcBackend.mulGenerator scalar with
      | none => .error ⟨.cryptoError, "Public key computation failed"⟩
      | some point => .ok ⟨some point⟩

end VoprfPrivateKey

/-- The client keeps its scalar and its input until the evaluation comes back. -/
structure VoprfFinalizationData where
  blindScalar : Bytes
  blindedElement : Bytes
  input : Bytes
  deriving DecidableEq, Repr

structure VoprfEvaluation where
  evaluatedElement : Bytes
  proof : Bytes
  deriving DecidableEq, Repr

structure VoprfServer where
  privateKey : VoprfPrivateKey

namespace VoprfServer

/-- The server multiplies the element by its key and proves that it did so. -/
def blindEvaluate (server : VoprfServer) (draws : List Nat) (blindedElement : Bytes) :
    Result VoprfEvaluation :=
  if blindedElement.length > maxInputSize then
    .error ⟨.cryptoError, "Blinded element too large"⟩
  else
    match bytesToPoint blindedElement with
    | none => .error ⟨.cryptoError, "Invalid blinded element"⟩
    | some R => do
        let scalarBytes ← server.privateKey.toBytes
        let k := BigEndian.ofBytes scalarBytes
        match EcBackend.mul k R with
        | none => .error ⟨.cryptoError, "Evaluation failed"⟩
        | some Z => do
            let publicKey ← server.privateKey.publicKey
            let pubBytes ← publicKey.toBytes
            match bytesToPoint pubBytes with
            | none => .error ⟨.cryptoError, "Failed to get public key point"⟩
            | some Y => do
                let proof ← generateDleqProof draws k Y R Z
                let zBytes ← pointToBytes Z
                .ok ⟨zBytes, proof⟩

end VoprfServer
end PrivacyPass.Crypto
