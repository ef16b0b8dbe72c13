import Mathlib.Data.List.Basic
import PrivacyPass.Library.BigEndian

/-
This file develops the probabilistic encoding of a digest, its mask and its check.
-/

namespace PrivacyPass.Library.Pss

/-- The hash has a fixed size, and the encoding fills a buffer whose first bit stays clear. -/
structure Scheme where
  hash : List UInt8 → List UInt8
  hashSize : ℕ
  hash_length : ∀ data, (hash data).length = hashSize
  saltSize : ℕ
  paddingSize : ℕ

variable (scheme : Scheme)

/-- The mask concatenates the hashes of the seed and a counter. -/
def mask (seed : List UInt8) (size : ℕ) : List UInt8 :=
  ((List.range (size / scheme.hashSize + 1)).flatMap fun counter =>
    scheme.hash (seed ++ BigEndian.toBytes 4 counter)).take size

def exclusiveOr (left right : List UInt8) : List UInt8 := List.zipWith (· ^^^ ·) left right

def clearFirstBit : List UInt8 → List UInt8
  | [] => []
  | first :: rest => (first &&& 0x7F) :: rest

/-- The salted hash covers the digest and the salt behind eight zeros. -/
def saltedHash (digest salt : List UInt8) : List UInt8 :=
  scheme.hash (List.replicate 8 0 ++ (digest ++ salt))

/-- The data block keeps the salt behind its padding. -/
def dataBlock (salt : List UInt8) : List UInt8 :=
  List.replicate scheme.paddingSize 0 ++ 0x01 :: salt

def blockSize : ℕ := scheme.paddingSize + 1 + scheme.saltSize

def encode (digest salt : List UInt8) : List UInt8 :=
  let seed := saltedHash scheme digest salt
  clearFirstBit (exclusiveOr (dataBlock scheme salt) (mask scheme seed (blockSize scheme))) ++
    (seed ++ [0xBC])

/-- The salt stands at the end of the unmasked data block. -/
def recoverSalt (encoded : List UInt8) : List UInt8 :=
  let masked := encoded.take (blockSize scheme)
  let seed := (encoded.drop (blockSize scheme)).take scheme.hashSize
  (exclusiveOr masked (mask scheme seed (blockSize scheme))).drop (scheme.paddingSize + 1)

/-- An encoding is accepted when its own salt leads to it. -/
def verify (digest encoded : List UInt8) : Bool :=
  decide ((recoverSalt scheme encoded).length = scheme.saltSize ∧
    encode scheme digest (recoverSalt scheme encoded) = encoded)

section Sizes

variable {scheme}

theorem mask_length (positive : 0 < scheme.hashSize) (seed : List UInt8) (size : ℕ) :
    (mask scheme seed size).length = size := by
  have blocks : ((List.range (size / scheme.hashSize + 1)).flatMap fun counter =>
      scheme.hash (seed ++ BigEndian.toBytes 4 counter)).length =
        (size / scheme.hashSize + 1) * scheme.hashSize := by
    simp [List.length_flatMap, scheme.hash_length]
  have enough : size ≤ (size / scheme.hashSize + 1) * scheme.hashSize :=
    (Nat.lt_mul_of_div_lt (Nat.lt_succ_self _) positive).le
  rw [mask, List.length_take, blocks, Nat.min_eq_left enough]

theorem exclusiveOr_length {left right : List UInt8} (same : left.length = right.length) :
    (exclusiveOr left right).length = left.length := by
  simp [exclusiveOr, same]

@[simp] theorem clearFirstBit_length (bytes : List UInt8) :
    (clearFirstBit bytes).length = bytes.length := by
  cases bytes <;> rfl

theorem dataBlock_length {salt : List UInt8} (size : salt.length = scheme.saltSize) :
    (dataBlock scheme salt).length = blockSize scheme := by
  simp [dataBlock, blockSize, size]
  omega

theorem maskedBlock_length (positive : 0 < scheme.hashSize) {salt : List UInt8}
    (size : salt.length = scheme.saltSize) (seed : List UInt8) :
    (clearFirstBit (exclusiveOr (dataBlock scheme salt)
      (mask scheme seed (blockSize scheme)))).length = blockSize scheme := by
  have block := dataBlock_length size
  rw [clearFirstBit_length, exclusiveOr_length (by rw [block, mask_length positive]), block]

/-- The encoding has a byte for each part and one for the trailer. -/
theorem encode_length (positive : 0 < scheme.hashSize) (digest : List UInt8) {salt : List UInt8}
    (size : salt.length = scheme.saltSize) :
    (encode scheme digest salt).length = blockSize scheme + (scheme.hashSize + 1) := by
  rw [encode, List.length_append, maskedBlock_length positive size, List.length_append,
    saltedHash, scheme.hash_length, List.length_singleton]

end Sizes

section Range

/-- A number with a clear first bit is below half of its range. -/
theorem clearFirstBit_lt (bytes rest : List UInt8) (nonempty : bytes ≠ []) :
    2 * BigEndian.ofBytes (clearFirstBit bytes ++ rest) < 256 ^ (bytes.length + rest.length) := by
  obtain ⟨first, tail, rfl⟩ := List.exists_cons_of_ne_nil nonempty
  have small : (first &&& 0x7F).toNat < 128 := by
    rw [UInt8.toNat_and]
    exact Nat.lt_of_le_of_lt Nat.and_le_right (by decide)
  have bound := BigEndian.ofBytes_cons_lt small (tail ++ rest)
  have width : (first :: tail).length + rest.length = (tail ++ rest).length + 1 := by
    rw [List.length_cons, List.length_append]
    omega
  rw [width, pow_succ]
  change 2 * BigEndian.ofBytes ((first &&& 0x7F) :: (tail ++ rest)) < _
  omega

/-- The first bit of an encoding is clear. -/
theorem encode_lt (digest salt : List UInt8) (positive : 0 < scheme.hashSize)
    (size : salt.length = scheme.saltSize) :
    BigEndian.ofBytes (encode scheme digest salt) <
      2 ^ (8 * (blockSize scheme + (scheme.hashSize + 1)) - 1) := by
  have block := dataBlock_length size
  have masked : (exclusiveOr (dataBlock scheme salt)
      (mask scheme (saltedHash scheme digest salt) (blockSize scheme))).length = blockSize scheme := by
    rw [exclusiveOr_length (by rw [block, mask_length positive]), block]
  have seed : (saltedHash scheme digest salt ++ [0xBC]).length = scheme.hashSize + 1 := by
    rw [List.length_append, saltedHash, scheme.hash_length, List.length_singleton]
  have nonempty : exclusiveOr (dataBlock scheme salt)
      (mask scheme (saltedHash scheme digest salt) (blockSize scheme)) ≠ [] := by
    intro empty
    rw [empty] at masked
    have some : 0 < blockSize scheme := by
      rw [blockSize]
      omega
    exact some.ne masked
  have bound := clearFirstBit_lt _ (saltedHash scheme digest salt ++ [0xBC]) nonempty
  rw [masked, seed] at bound
  have whole : 256 ^ (blockSize scheme + (scheme.hashSize + 1)) =
      2 * 2 ^ (8 * (blockSize scheme + (scheme.hashSize + 1)) - 1) := by
    rw [← Nat.pow_succ', Nat.succ_eq_add_one, Nat.sub_add_cancel (by omega), Nat.pow_mul]
  rw [whole] at bound
  exact Nat.lt_of_mul_lt_mul_left bound

/-- The trailer ends every encoding. -/
theorem encode_trailer (digest salt : List UInt8) :
    ∃ front, encode scheme digest salt = front ++ [0xBC] := by
  rw [encode, ← List.append_assoc]
  exact ⟨_, rfl⟩

end Range

section Recovery

theorem exclusiveOr_cancel (left right : List UInt8) (same : left.length ≤ right.length) :
    exclusiveOr (exclusiveOr left right) right = left := by
  induction left generalizing right with
  | nil => simp [exclusiveOr]
  | cons byte left ih =>
      cases right with
      | nil => cases same
      | cons other right =>
          have tail := ih right (Nat.le_of_succ_le_succ same)
          simp only [exclusiveOr, List.zipWith_cons_cons] at tail ⊢
          rw [tail, UInt8.xor_assoc, UInt8.xor_self, UInt8.xor_zero]

theorem drop_exclusiveOr (count : ℕ) (left right : List UInt8) :
    (exclusiveOr left right).drop count = exclusiveOr (left.drop count) (right.drop count) := by
  simp [exclusiveOr, List.drop_zipWith]

/-- Clearing the first bit leaves the bytes behind the first one alone. -/
theorem drop_clearFirstBit (count : ℕ) (bytes : List UInt8) :
    (clearFirstBit bytes).drop (count + 1) = bytes.drop (count + 1) := by
  cases bytes <;> rfl

variable {scheme}

/-- The salt is recovered from the encoding. -/
theorem recoverSalt_encode (positive : 0 < scheme.hashSize) (digest : List UInt8)
    {salt : List UInt8} (size : salt.length = scheme.saltSize) :
    recoverSalt scheme (encode scheme digest salt) = salt := by
  have masked := maskedBlock_length positive size (saltedHash scheme digest salt)
  have hashed : (saltedHash scheme digest salt).length = scheme.hashSize := scheme.hash_length _
  have block := dataBlock_length size
  unfold recoverSalt encode
  dsimp only
  rw [List.take_left' masked, List.drop_left' masked, List.take_left' hashed, drop_exclusiveOr,
    drop_clearFirstBit, drop_exclusiveOr, exclusiveOr_cancel]
  · rw [dataBlock, ← List.drop_drop, List.drop_left' List.length_replicate]
    rfl
  · rw [List.length_drop, List.length_drop, mask_length positive, block]

/-- An encoding is accepted for its digest. -/
theorem verify_encode (positive : 0 < scheme.hashSize) (digest : List UInt8) {salt : List UInt8}
    (size : salt.length = scheme.saltSize) :
    verify scheme digest (encode scheme digest salt) = true := by
  rw [verify, recoverSalt_encode positive digest size]
  simp [size]

end Recovery
end PrivacyPass.Library.Pss
