import PrivacyPass.Construction.Crypto.HashToCurve

/-
This file models the client of the VOPRF and the checks of both parties.
-/

namespace PrivacyPass.Crypto

open Library

variable [CurveBackend]

def dstFinalize : Bytes := ascii "Finalize"

def proofChallenge (proof : Bytes) : Nat := BigEndian.ofBytes (proof.take p384ScalarSize)

def proofResponse (proof : Bytes) : Nat :=
  BigEndian.ofBytes ((proof.drop p384ScalarSize).take p384ScalarSize)

/-- The verifier computes both commitments again from the challenge and the response. -/
def recomputeCommitments (Y M compositeZ : EcBackend.Point) (c s : Nat) :
    Result (EcBackend.Point × EcBackend.Point) :=
  match CurveBackend.mulAdd s Y c with
  | none => .error ⟨.cryptoError, "Failed to compute A'"⟩
  | some APrime =>
      match EcBackend.mul s M, EcBackend.mul c compositeZ with
      | some sM, some cZ =>
          match EcBackend.add sM cZ with
          | none => .error ⟨.cryptoError, "Failed to compute B'"⟩
          | some BPrime => .ok (APrime, BPrime)
      | _, _ => .error ⟨.cryptoError, "Failed to compute B'"⟩

/-- These are the points that the verifier hashes. -/
structure DleqRun where
  M : EcBackend.Point
  compositeZ : EcBackend.Point
  APrime : EcBackend.Point
  BPrime : EcBackend.Point

/-- The verifier checks the form of the proof before it computes any point. -/
def dleqRun (Y R Z : EcBackend.Point) (proof : Bytes) : Result DleqRun :=
  if proof.length ≠ p384ProofSize then .error ⟨.verificationFailed, "Invalid proof size"⟩
  else if proofChallenge proof ≥ EcBackend.order ∨ proofResponse proof ≥ EcBackend.order then
    .error ⟨.verificationFailed, "Proof scalars out of range"⟩
  else do
    let (M, compositeZ) ← computeComposites Y R Z
    let (APrime, BPrime) ← recomputeCommitments Y M compositeZ (proofChallenge proof) (proofResponse proof)
    .ok ⟨M, compositeZ, APrime, BPrime⟩

def verifyDleqProof (Y R Z : EcBackend.Point) (proof : Bytes) : Result Bool := do
  let run ← dleqRun Y R Z proof
  let cPrime ← computeDleqChallenge Y run.M run.compositeZ run.APrime run.BPrime
  .ok (decide (zeroPadded (proofChallenge proof) p384ScalarSize = zeroPadded cPrime p384ScalarSize))

def finalizeOutput (input issuedElement : Bytes) : Result Bytes :=
  if input.length > 0xFFFF ∨ issuedElement.length > 0xFFFF then
    .error ⟨.invalidLength, "VOPRF finalize input too large"⟩
  else do
    let hashInput := appendU16LenPrefixed (appendU16LenPrefixed [] input) issuedElement
    let output ← sha384 (hashInput ++ dstFinalize)
    .ok output.val

structure VoprfClient where
  publicKey : VoprfPublicKey

namespace VoprfClient

/-- The scalar is drawn once, and a zero is a failure. -/
def blind (_client : VoprfClient) (draw : Option Nat) (input : Bytes) :
    Result VoprfFinalizationData := do
  let H ← hashToCurve input
  match draw with
  | none | some 0 => .error ⟨.blindingFailed, "Failed to generate blinding scalar"⟩
  | some r =>
      match EcBackend.mul r H with
      | none => .error ⟨.blindingFailed, "Failed to compute blinded element"⟩
      | some R => do
          let blindedBytes ← pointToBytes R
          .ok ⟨zeroPadded r p384ScalarSize, blindedBytes, input⟩

/-- The proof is checked before the element is unblinded. -/
def finalize (client : VoprfClient) (finalizationData : VoprfFinalizationData)
    (evaluation : VoprfEvaluation) : Result Bytes :=
  if evaluation.evaluatedElement.length > maxInputSize ∨ evaluation.proof.length ≠ p384ProofSize ∨
      finalizationData.blindScalar.length > maxInputSize ∨
      finalizationData.blindedElement.length > maxInputSize then
    .error ⟨.cryptoError, "Invalid input sizes"⟩
  else
    match bytesToPoint evaluation.evaluatedElement with
    | none => .error ⟨.unblindingFailed, "Invalid evaluated element"⟩
    | some Z =>
        match bytesToPoint finalizationData.blindedElement with
        | none => .error ⟨.unblindingFailed, "Invalid blinded element"⟩
        | some R => do
            let pubBytes ← client.publicKey.toBytes
            match bytesToPoint pubBytes with
            | none => .error ⟨.cryptoError, "Failed to parse public key"⟩
            | some Y => do
                let verified ← verifyDleqProof Y R Z evaluation.proof
                if verified = false then
                  .error ⟨.verificationFailed,
                    "DLEQ proof verification failed - evaluation may be malicious"⟩
                else
                  let r := BigEndian.ofBytes finalizationData.blindScalar
                  match bnModInverse r EcBackend.order with
                  | none => .error ⟨.unblindingFailed, "Failed to compute inverse"⟩
                  | some rInv =>
                      match EcBackend.mul rInv Z with
                      | none => .error ⟨.unblindingFailed, "Failed to unblind"⟩
                      | some N => do
                          let outputPoint ← pointToBytes N
                          finalizeOutput finalizationData.input outputPoint

end VoprfClient

/-- The server computes the output from its key and the input alone. -/
def VoprfServer.verifyFinalize (server : VoprfServer) (input output : Bytes) : Result Bool :=
  if input.length > maxInputSize then .error ⟨.cryptoError, "Input too large"⟩
  else do
    let H ← hashToCurve input
    let scalarBytes ← server.privateKey.toBytes
    let k := BigEndian.ofBytes scalarBytes
    match EcBackend.mul k H with
    | none => .error ⟨.verificationFailed, "Failed to compute expected output"⟩
    | some expected => do
        let expectedBytes ← pointToBytes expected
        let expectedHash ← finalizeOutput input expectedBytes
        .ok (decide (output = expectedHash))

end PrivacyPass.Crypto
