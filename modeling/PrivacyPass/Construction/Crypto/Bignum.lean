import Mathlib.Data.Int.GCD
import PrivacyPass.Construction.Types
import PrivacyPass.Library.BigEndian

/-
This file models the exact number operations of the crypto library.
-/

namespace PrivacyPass.Crypto

open Library

/-- A larger buffer does not fit the library's integer type. -/
def maxInputSize : Nat := 2147483647

def bnNumBits (number : Nat) : Nat := if number = 0 then 0 else Nat.log2 number + 1

def bnNumBytes (number : Nat) : Nat := (bnNumBits number + 7) / 8

/-- The inverse exists exactly when the number and the modulus have no common factor. -/
def bnModInverse (number modulus : Nat) : Option Nat :=
  if Nat.gcd number modulus = 1 then some ((Nat.gcdA number modulus) % (modulus : Int)).toNat else none

/-- The Montgomery arithmetic needs an odd modulus. -/
def bnMontCtxSet (modulus : Nat) : Bool := modulus % 2 = 1

def bnModExpMont (base exponent modulus : Nat) : Option Nat :=
  if modulus % 2 = 1 then some (Nat.mod (base ^ exponent) modulus) else none

def bnModMulMontgomery (left right modulus : Nat) : Option Nat :=
  if modulus % 2 = 1 then some (left * right % modulus) else none

def bnBn2BinPad (number size : Nat) : Option Bytes :=
  if bnNumBytes number ≤ size then some (BigEndian.toBytes size number) else none

/-- The buffer holds zeros, and a number that is too large leaves them there. -/
def zeroPadded (number size : Nat) : Bytes :=
  (bnBn2BinPad number size).getD (List.replicate size 0)

/-- A number may be negative, and its remainder is not. -/
def bnModAdd (left right : Int) (modulus : Nat) : Nat := ((left + right) % modulus).toNat

def bnModMul (left right : Int) (modulus : Nat) : Nat := (left * right % modulus).toNat

def bnModSqr (number : Int) (modulus : Nat) : Nat := bnModMul number number modulus

end PrivacyPass.Crypto
