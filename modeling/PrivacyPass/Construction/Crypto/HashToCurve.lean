import PrivacyPass.Construction.Crypto.Voprf

/-
This file models the map from messages to points of the curve.
-/

namespace PrivacyPass.Crypto

open Library

/-- The crypto library knows the equation of the curve and adds a multiple of its generator. -/
class CurveBackend extends EcBackend where
  fieldModulus : Nat
  curveA : Nat
  curveB : Nat
  setAffineCoordinates : (x y : Nat) → Option Point
  mulAdd : (scalar : Nat) → Point → (factor : Nat) → Option Point

def dstH2C : Bytes := ascii "HashToGroup-OPRFV1-\x01-P384-SHA384"

variable [CurveBackend]

/-- This is the right side of the equation of the curve. -/
def curveValue (x : Nat) : Nat :=
  let p := CurveBackend.fieldModulus
  ((x * x % p + CurveBackend.curveA) % p * x % p + CurveBackend.curveB) % p

/-- The power is a square root in a field whose order has the remainder 3 modulo 4. -/
def squareRoot (value : Nat) : Nat :=
  let p := CurveBackend.fieldModulus
  Nat.mod (value ^ ((p + 1) >>> 2)) p

/-- The mask of all ones takes the bytes on the right, and the mask of zeros those on the left. -/
def selectBytes (takeRight : Bool) (left right : Bytes) : Bytes :=
  let mask : UInt8 := 0 - (if takeRight then 1 else 0)
  List.zipWith (fun l r => l ^^^ (mask &&& (l ^^^ r))) left right

/-- The numbers are selected through their bytes, without a branch. -/
def selectNumber (takeRight : Bool) (left right : Nat) : Nat :=
  let fieldLen := bnNumBytes CurveBackend.fieldModulus
  BigEndian.ofBytes (selectBytes takeRight (zeroPadded left fieldLen) (zeroPadded right fieldLen))

section Candidates

variable (Z : Int) (u : Nat)

def sswuTv3 : Nat := bnModMul Z (bnModSqr u CurveBackend.fieldModulus) CurveBackend.fieldModulus

def sswuTv5 : Nat :=
  let p := CurveBackend.fieldModulus
  bnModAdd (bnModSqr (sswuTv3 Z u) p) (sswuTv3 Z u) p

/-- The denominator has a case of its own where it would be zero. -/
def sswuTv6 : Nat :=
  let p := CurveBackend.fieldModulus
  if sswuTv5 Z u = 0 then bnModMul Z CurveBackend.curveA p
  else bnModMul (sswuTv5 Z u) ((p : Int) - CurveBackend.curveA) p

/-- Both candidates are computed, and the second one is taken when the first one is not on the curve.
The sign of the ordinate follows `u`. -/
def sswuPoint : Option (Nat × Nat) :=
  let p := CurveBackend.fieldModulus
  let tv4 := bnModMul (bnModAdd (sswuTv5 Z u) 1 p) CurveBackend.curveB p
  match bnModInverse (sswuTv6 Z u) p with
  | none => none
  | some tv6Inv =>
      let x1 := bnModMul tv4 tv6Inv p
      let y1 := squareRoot (curveValue x1)
      let isSquare := decide (zeroPadded (bnModSqr y1 p) (bnNumBytes p) =
        zeroPadded (curveValue x1) (bnNumBytes p))
      let x2 := bnModMul (sswuTv3 Z u) x1 p
      let y2 := squareRoot (curveValue x2)
      let x := selectNumber (!isSquare) x1 x2
      let y := selectNumber (!isSquare) y1 y2
      some (x, selectNumber (decide (u % 2 ≠ y % 2)) y (p - y))

def mapToCurveSswuWith : Result EcBackend.Point :=
  match sswuPoint Z u with
  | none => .error ⟨.cryptoError, "Failed to compute inverse"⟩
  | some (x, y) =>
      match CurveBackend.setAffineCoordinates x y with
      | some point => .ok point
      | none => .error ⟨.cryptoError, "Failed to create point"⟩

end Candidates

/-- The constant of the curve is twelve below its modulus. -/
def mapToCurveSswu (u : Nat) : Result EcBackend.Point :=
  mapToCurveSswuWith ((CurveBackend.fieldModulus : Int) - 12) u

def hashToCurve (input : Bytes) : Result EcBackend.Point :=
  if input.length > maxInputSize then .error ⟨.cryptoError, "Input too large"⟩
  else do
    let expanded ← expandMessageXmd input dstH2C (2 * 72)
    let u0 := BigEndian.ofBytes (expanded.take 72) % CurveBackend.fieldModulus
    let u1 := BigEndian.ofBytes ((expanded.drop 72).take 72) % CurveBackend.fieldModulus
    let Q0 ← mapToCurveSswu u0
    let Q1 ← mapToCurveSswu u1
    match EcBackend.add Q0 Q1 with
    | some R => .ok R
    | none => .error ⟨.cryptoError, "Point addition failed"⟩

end PrivacyPass.Crypto
