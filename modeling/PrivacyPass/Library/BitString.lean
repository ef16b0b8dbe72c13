import Mathlib.Data.Nat.Bitwise
import Mathlib.Data.List.Basic
import Mathlib.Tactic.Ring

/-
This file develops strings of bits, the most significant bit first, and reads bytes from them.
-/

namespace PrivacyPass.Library.BitString

/-- This function writes the low bits of a number at a fixed width. -/
def ofNat : Nat → Nat → List Bool
  | 0, _ => []
  | width + 1, number => number.testBit width :: ofNat width number

/-- This function reads a string of bits as a number. -/
def value (bits : List Bool) : Nat := bits.foldl (fun number bit => 2 * number + bit.toNat) 0

/-- This function reads the first bytes of a string of bits. -/
def bytes : Nat → List Bool → List UInt8
  | 0, _ => []
  | count + 1, bits => (value (bits.take 8)).toUInt8 :: bytes count (bits.drop 8)

@[simp] theorem ofNat_length (width number : Nat) : (ofNat width number).length = width := by
  induction width with
  | zero => rfl
  | succ width ih => simp [ofNat, ih]

theorem foldl_value (bits : List Bool) (start : Nat) :
    bits.foldl (fun number bit => 2 * number + bit.toNat) start =
      start * 2 ^ bits.length + value bits := by
  induction bits generalizing start with
  | nil => simp [value]
  | cons bit bits ih =>
      rw [value, List.foldl_cons, List.foldl_cons, ih, ih (2 * 0 + bit.toNat), List.length_cons, pow_succ]
      ring

/-- The written bits stand for the number without its high part. -/
theorem value_ofNat (width number : Nat) : value (ofNat width number) = number % 2 ^ width := by
  induction width with
  | zero => simp [ofNat, value, Nat.mod_one]
  | succ width ih =>
      have top : (number.testBit width).toNat = number / 2 ^ width % 2 := Nat.toNat_testBit _ _
      rw [ofNat, value, List.foldl_cons, foldl_value, ofNat_length, ih, top, Nat.mod_pow_succ]
      ring

/-- The written bits depend on the low part of the number only. -/
theorem ofNat_congr {width left right : Nat} (same : left % 2 ^ width = right % 2 ^ width) :
    ofNat width left = ofNat width right := by
  have bit (index : Nat) (inside : index < width) : left.testBit index = right.testBit index := by
    have equal := congrArg (fun number => number.testBit index) same
    simpa only [Nat.testBit_mod_two_pow, inside, decide_true, Bool.true_and] using equal
  clear same
  induction width with
  | zero => rfl
  | succ width ih =>
      rw [ofNat, ofNat, bit width (Nat.lt_succ_self width),
        ih fun index inside => bit index (Nat.lt_succ_of_lt inside)]

/-- The high bits of a number stand before its low bits. -/
theorem ofNat_add (high low number : Nat) :
    ofNat (high + low) number = ofNat high (number / 2 ^ low) ++ ofNat low number := by
  induction high with
  | zero => rw [Nat.zero_add, ofNat, List.nil_append]
  | succ high ih =>
      rw [Nat.succ_add, ofNat, ofNat, ih, List.cons_append, Nat.testBit_div_two_pow]

/-- The bits of a pushed value follow the bits that the register held. -/
theorem ofNat_push {width : Nat} (held register : Nat) {pushed : Nat} (fits : pushed < 2 ^ width) :
    ofNat (held + width) (register * 2 ^ width + pushed) = ofNat held register ++ ofNat width pushed := by
  have positive : 0 < 2 ^ width := Nat.two_pow_pos width
  have high : (register * 2 ^ width + pushed) / 2 ^ width = register := by
    rw [Nat.mul_comm, Nat.mul_add_div positive, Nat.div_eq_of_lt fits, Nat.add_zero]
  rw [ofNat_add, high]
  congr 1
  apply ofNat_congr
  rw [Nat.mul_add_mod_self_right]

/-- The first byte is read from its eight bits. -/
theorem bytes_succ (count : Nat) (byte : UInt8) (bits : List Bool) :
    bytes (count + 1) (ofNat 8 byte.toNat ++ bits) = byte :: bytes count bits := by
  have whole : (ofNat 8 byte.toNat).length = 8 := ofNat_length 8 _
  rw [bytes, List.take_left' whole, List.drop_left' whole, value_ofNat, Nat.mod_eq_of_lt byte.toNat_lt]
  congr 1
  exact UInt8.ofNat_toNat

end PrivacyPass.Library.BitString
