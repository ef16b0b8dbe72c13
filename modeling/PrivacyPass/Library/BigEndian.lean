import Mathlib.Data.Nat.Bitwise
import Mathlib.Tactic.Ring

/-
This file relates natural numbers to their big-endian byte strings.
-/

namespace PrivacyPass.Library.BigEndian

/-- This function reads a byte string as a number. -/
def ofBytes : List UInt8 → Nat
  | [] => 0
  | byte :: bytes => byte.toNat * 256 ^ bytes.length + ofBytes bytes

/-- This function writes the low bytes of a number at a fixed width. -/
def toBytes : Nat → Nat → List UInt8
  | 0, _ => []
  | width + 1, value => (value / 256 ^ width).toUInt8 :: toBytes width value

@[simp] theorem toBytes_length (width value : Nat) : (toBytes width value).length = width := by
  induction width with
  | zero => rfl
  | succ width ih => simp [toBytes, ih]

theorem ofBytes_lt (bytes : List UInt8) : ofBytes bytes < 256 ^ bytes.length := by
  induction bytes with
  | nil => simp [ofBytes]
  | cons byte bytes ih =>
      have small := byte.toNat_lt
      have scaled : byte.toNat * 256 ^ bytes.length ≤ 255 * 256 ^ bytes.length :=
        Nat.mul_le_mul_right _ (by omega)
      simp only [ofBytes, List.length_cons, Nat.pow_succ]
      omega

/-- The written bytes stand for the number without its high part. -/
theorem ofBytes_toBytes_mod (width value : Nat) :
    ofBytes (toBytes width value) = value % 256 ^ width := by
  induction width with
  | zero => simp [toBytes, ofBytes, Nat.mod_one]
  | succ width ih =>
      rw [toBytes, ofBytes, toBytes_length, ih, Nat.mod_pow_succ, Nat.mul_comm, Nat.add_comm]
      rfl

/-- A number that fits the width survives the round trip. -/
theorem ofBytes_toBytes {width value : Nat} (fits : value < 256 ^ width) :
    ofBytes (toBytes width value) = value := by
  rw [ofBytes_toBytes_mod, Nat.mod_eq_of_lt fits]

/-- The written bytes depend on the low part of the number only. -/
theorem toBytes_congr {width left right : Nat} (same : left % 256 ^ width = right % 256 ^ width) :
    toBytes width left = toBytes width right := by
  induction width with
  | zero => rfl
  | succ width ih =>
      have low : left % 256 ^ width = right % 256 ^ width := by
        have divides : 256 ^ width ∣ 256 ^ (width + 1) := Nat.pow_dvd_pow 256 (Nat.le_succ width)
        rw [← Nat.mod_mod_of_dvd left divides, same, Nat.mod_mod_of_dvd right divides]
      have high : left / 256 ^ width % 256 = right / 256 ^ width % 256 := by
        have shifted := congrArg (· / 256 ^ width) same
        simpa only [Nat.pow_succ, Nat.mod_mul_right_div_self] using shifted
      rw [toBytes, toBytes, ih low]
      congr 1
      apply UInt8.toNat_inj.mp
      simpa [Nat.toUInt8] using high

/-- Every byte string survives the round trip at its own width. -/
theorem toBytes_ofBytes (bytes : List UInt8) : toBytes bytes.length (ofBytes bytes) = bytes := by
  induction bytes with
  | nil => rfl
  | cons byte bytes ih =>
      have small := ofBytes_lt bytes
      have positive : 0 < 256 ^ bytes.length := Nat.pow_pos (by decide)
      have quotient : (byte.toNat * 256 ^ bytes.length + ofBytes bytes) / 256 ^ bytes.length =
          byte.toNat := by
        rw [Nat.mul_comm, Nat.mul_add_div positive, Nat.div_eq_of_lt small, Nat.add_zero]
      have tail : toBytes bytes.length (byte.toNat * 256 ^ bytes.length + ofBytes bytes) =
          toBytes bytes.length (ofBytes bytes) :=
        toBytes_congr (by rw [Nat.mul_add_mod_self_right])
      rw [List.length_cons, ofBytes, toBytes, quotient, tail, ih]
      simp

/-- The last byte has the lowest weight. -/
theorem ofBytes_concat (bytes : List UInt8) (last : UInt8) :
    ofBytes (bytes ++ [last]) = ofBytes bytes * 256 + last.toNat := by
  induction bytes with
  | nil => simp [ofBytes]
  | cons byte bytes ih =>
      rw [List.cons_append, ofBytes, ih, ofBytes, List.length_append, List.length_singleton, pow_succ]
      ring

/-- The first byte has the highest weight. -/
theorem ofBytes_cons_lt {byte : UInt8} {limit : Nat} (small : byte.toNat < limit) (bytes : List UInt8) :
    ofBytes (byte :: bytes) < limit * 256 ^ bytes.length := by
  have rest := ofBytes_lt bytes
  rw [ofBytes]
  calc byte.toNat * 256 ^ bytes.length + ofBytes bytes
      < byte.toNat * 256 ^ bytes.length + 256 ^ bytes.length := by omega
    _ = (byte.toNat + 1) * 256 ^ bytes.length := by rw [Nat.succ_mul]
    _ ≤ limit * 256 ^ bytes.length := Nat.mul_le_mul_right _ small

/-- A shifted high part and a low byte join by addition. -/
theorem shiftLeft_or_byte (high : Nat) (low : UInt8) :
    high <<< 8 ||| low.toNat = high * 256 + low.toNat := by
  rw [← Nat.shiftLeft_add_eq_or_of_lt low.toNat_lt, Nat.shiftLeft_eq]

end PrivacyPass.Library.BigEndian
