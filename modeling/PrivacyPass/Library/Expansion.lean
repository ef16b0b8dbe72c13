import Mathlib.Algebra.Order.Floor.Div
import PrivacyPass.Library.BigEndian

/-
This file develops the expansion of a message to any length by a hash function of a fixed size.
The hash function, its size and the size of its input blocks are arbitrary.
-/

namespace PrivacyPass.Library.Expansion

open BigEndian

variable {size : Nat}

/-- A hash function returns strings of one size. -/
abbrev Hash (size : Nat) := List UInt8 → { bytes : List UInt8 // bytes.length = size }

/-- The bytes of two strings are mixed one by one. -/
def mix (left right : List UInt8) : List UInt8 := List.zipWith (· ^^^ ·) left right

/-- A tag is followed by its own length. -/
def tagPrime (tag : List UInt8) : List UInt8 := tag ++ toBytes 1 tag.length

section Blocks

variable (hash : Hash size) (inputSize : Nat) (message tag : List UInt8) (length : Nat)

/-- The first block hashes the whole message. -/
def firstBlock : { bytes : List UInt8 // bytes.length = size } :=
  hash (List.replicate inputSize 0 ++ message ++ toBytes 2 length ++ toBytes 1 0 ++ tagPrime tag)

/-- Each later block hashes the first one mixed with the one before it. -/
def block : Nat → { bytes : List UInt8 // bytes.length = size }
  | 0 => firstBlock hash inputSize message tag length
  | 1 => hash ((firstBlock hash inputSize message tag length).val ++ toBytes 1 1 ++ tagPrime tag)
  | index + 2 =>
      hash (mix (firstBlock hash inputSize message tag length).val (block (index + 1)).val ++
        toBytes 1 (index + 2) ++ tagPrime tag)

/-- These blocks stand one after another from the given index on. -/
def blocks (start count : Nat) : List UInt8 :=
  (List.range' start count).flatMap fun index => (block hash inputSize message tag length index).val

/-- The expansion is the front of enough blocks. -/
def expand : List UInt8 :=
  (blocks hash inputSize message tag length 1 (length ⌈/⌉ size)).take length

theorem blocks_succ (start count : Nat) : blocks hash inputSize message tag length start (count + 1) =
    (block hash inputSize message tag length start).val ++
      blocks hash inputSize message tag length (start + 1) count := by
  rw [blocks, List.range'_succ, List.flatMap_cons]
  rfl

theorem blocks_length (start count : Nat) :
    (blocks hash inputSize message tag length start count).length = size * count := by
  induction count generalizing start with
  | zero => rfl
  | succ count ih =>
      rw [blocks_succ, List.length_append, ih, (block hash inputSize message tag length start).property]
      ring

/-- The expansion has the length that was asked for. -/
theorem expand_length (positive : 0 < size) :
    (expand hash inputSize message tag length).length = length := by
  rw [expand, List.length_take, blocks_length]
  exact Nat.min_eq_left (le_smul_ceilDiv positive)

end Blocks

theorem toBytes_one (value : Nat) : toBytes 1 value = [value.toUInt8] := by
  rw [toBytes, toBytes, Nat.pow_zero, Nat.div_one]

theorem toBytes_two (value : Nat) : toBytes 2 value = [(value >>> 8).toUInt8, value.toUInt8] := by
  rw [toBytes, toBytes_one, Nat.shiftRight_eq_div_pow]
  rfl

end PrivacyPass.Library.Expansion
