import PrivacyPass.Construction.Base64Url
import PrivacyPass.Proof.Wire.Primitives

/-
This file proves that base64url decoding inverts both encodings.
-/

namespace PrivacyPass.Base64Url

open Library ByteReader

/-- The two tables are inverse to each other on the alphabet. -/
theorem decodeTable_encodeTable : ∀ index < 64,
    decodeTable.getD (encodeTable.getD index 0).toNat 255 = index.toUInt8 ∧
      index.toUInt8 ≠ 255 ∧ encodeTable.getD index 0 ∈ encodeTable := by
  have inverse : ∀ index < 64, decodeTable.getD (encodeTable.getD index 0).toNat 255 = index.toUInt8 ∧
      index.toUInt8 ≠ 255 := by decide +kernel
  intro index small
  have inside : index < encodeTable.length := small
  refine ⟨(inverse index small).1, (inverse index small).2, ?_⟩
  rw [List.getD_eq_getElem _ _ inside]
  exact List.getElem_mem inside

theorem digit_toNat (chunk shift : UInt32) :
    ((chunk >>> shift) &&& 0x3F).toNat = chunk.toNat / 2 ^ (shift.toNat % 32) % 64 := by
  rw [UInt32.toNat_and, UInt32.toNat_shiftRight, Nat.shiftRight_eq_div_pow]
  exact Nat.and_two_pow_sub_one_eq_mod _ 6

theorem digit_lt (chunk shift : UInt32) : ((chunk >>> shift) &&& 0x3F).toNat < 64 := by
  rw [digit_toNat]
  exact Nat.mod_lt _ (by decide)

theorem output_toNat (buffer bits : UInt32) :
    ((buffer >>> bits) &&& 0xFF).toUInt8.toNat = buffer.toNat / 2 ^ (bits.toNat % 32) % 256 := by
  rw [UInt32.toNat_toUInt8, UInt32.toNat_and, UInt32.toNat_shiftRight, Nat.shiftRight_eq_div_pow]
  have masked := Nat.and_two_pow_sub_one_eq_mod (buffer.toNat / 2 ^ (bits.toNat % 32)) 8
  change (_ &&& 255) % 256 = _
  rw [masked, Nat.mod_mod]

/-- The buffer keeps the last 32 of the bits that were pushed into it. -/
theorem push_toNat (buffer : UInt32) {digit : UInt32} (small : digit.toNat < 64) :
    ((buffer <<< 6) ||| digit).toNat = (buffer.toNat * 64 + digit.toNat) % 4294967296 := by
  have shifted : buffer.toNat <<< 6 % 4294967296 = (buffer.toNat % 67108864) <<< 6 := by
    rw [Nat.shiftLeft_eq, Nat.shiftLeft_eq]
    omega
  rw [UInt32.toNat_or, UInt32.toNat_shiftLeft]
  change buffer.toNat <<< 6 % 4294967296 ||| _ = _
  rw [shifted, ← Nat.shiftLeft_add_eq_or_of_lt (i := 6) small, Nat.shiftLeft_eq]
  omega

theorem pushed_toNat (buffer chunk shift : UInt32) :
    ((buffer <<< 6) ||| ((chunk >>> shift) &&& 0x3F)).toNat =
      (buffer.toNat * 64 + chunk.toNat / 2 ^ (shift.toNat % 32) % 64) % 4294967296 := by
  rw [push_toNat buffer (digit_lt chunk shift), digit_toNat]

section Chunks

variable (word buffer : UInt32)

/-- The buffer drops its leading bits and takes six bits of the chunk in. -/
def pushed (shift buffer : UInt32) : UInt32 := (buffer <<< 6) ||| ((word >>> shift) &&& 0x3F)

/-- A completed byte leaves the buffer above the bits that remain in it. -/
def output (bits buffer : UInt32) : UInt8 := ((buffer >>> bits) &&& 0xFF).toUInt8

/-- The second symbol of a chunk completes its first byte. -/
theorem output_first : (output 4 (pushed word 12 (pushed word 18 buffer))).toNat =
    word.toNat / 65536 % 256 := by
  rw [output, output_toNat, pushed, pushed_toNat, pushed, pushed_toNat]
  change ((_ * 64 + word.toNat / 2 ^ 18 % 64) % _ * 64 + word.toNat / 2 ^ 12 % 64) % _ / 2 ^ 4 % 256 = _
  omega

/-- The third symbol of a chunk completes its second byte. -/
theorem output_second : (output 2 (pushed word 6 (pushed word 12 (pushed word 18 buffer)))).toNat =
    word.toNat / 256 % 256 := by
  rw [output, output_toNat, pushed, pushed_toNat, pushed, pushed_toNat]
  change ((_ * 64 + word.toNat / 2 ^ 12 % 64) % _ * 64 + word.toNat / 2 ^ 6 % 64) % _ / 2 ^ 2 % 256 = _
  omega

/-- The fourth symbol of a chunk completes its third byte. -/
theorem output_third :
    (output 0 (pushed word 0 (pushed word 6 (pushed word 12 (pushed word 18 buffer))))).toNat =
      word.toNat % 256 := by
  rw [output, output_toNat, pushed, pushed_toNat, pushed, pushed_toNat]
  change ((_ * 64 + word.toNat / 2 ^ 6 % 64) % _ * 64 + word.toNat / 2 ^ 0 % 64) % _ / 2 ^ 0 % 256 = _
  omega

end Chunks

/-- A symbol of the alphabet pushes its digit, and a full byte leaves the buffer. -/
theorem decodeLoop_symbol (word shift : UInt32) (rest : Bytes) (buffer bits : UInt32)
    (result : Bytes) :
    decodeLoop (symbol word shift :: rest) buffer bits result =
      if bits + 6 ≥ 8 then
        decodeLoop rest (pushed word shift buffer) (bits + 6 - 8)
          (result ++ [output (bits + 6 - 8) (pushed word shift buffer)])
      else decodeLoop rest (pushed word shift buffer) (bits + 6) result := by
  obtain ⟨decoded, valid, -⟩ := decodeTable_encodeTable _ (digit_lt word shift)
  have digit : ((word >>> shift) &&& 0x3F).toNat.toUInt8.toUInt32 = (word >>> shift) &&& 0x3F := by
    have small := digit_lt word shift
    generalize (word >>> shift) &&& 0x3F = digit at small ⊢
    apply UInt32.toNat_inj.mp
    rw [UInt8.toNat_toUInt32]
    change digit.toNat % 256 = digit.toNat
    omega
  rw [decodeLoop, symbol, decoded, digit]
  dsimp only
  rw [if_neg valid]
  rfl

/-- Three bytes fill a chunk. -/
theorem chunk_toNat (first second third : UInt8) :
    ((first.toUInt32 <<< 16) ||| (second.toUInt32 <<< 8) ||| third.toUInt32).toNat =
      (first.toNat * 256 + second.toNat) * 256 + third.toNat := by
  have small1 := first.toNat_lt
  have small2 := second.toNat_lt
  have fits1 : first.toNat <<< 16 < 4294967296 := by rw [Nat.shiftLeft_eq]; omega
  have fits2 : second.toNat <<< 8 < 4294967296 := by rw [Nat.shiftLeft_eq]; omega
  rw [UInt32.toNat_or, UInt32.toNat_or, UInt32.toNat_shiftLeft, UInt32.toNat_shiftLeft,
    UInt8.toNat_toUInt32, UInt8.toNat_toUInt32, UInt8.toNat_toUInt32]
  change first.toNat <<< 16 % 4294967296 ||| second.toNat <<< 8 % 4294967296 ||| third.toNat = _
  rw [Nat.mod_eq_of_lt fits1, Nat.mod_eq_of_lt fits2, ← BigEndian.shiftLeft_or_byte,
    ← BigEndian.shiftLeft_or_byte, Nat.shiftLeft_or_distrib, ← Nat.shiftLeft_add]

/-- The symbols of a chunk give its bytes back, whatever the buffer held before. -/
theorem chunk_outputs (first second third : UInt8) (buffer : UInt32) :
    let word := (first.toUInt32 <<< 16) ||| (second.toUInt32 <<< 8) ||| third.toUInt32
    output 4 (pushed word 12 (pushed word 18 buffer)) = first ∧
      output 2 (pushed word 6 (pushed word 12 (pushed word 18 buffer))) = second ∧
      output 0 (pushed word 0 (pushed word 6 (pushed word 12 (pushed word 18 buffer)))) = third := by
  intro word
  have small1 := first.toNat_lt
  have small2 := second.toNat_lt
  have small3 := third.toNat_lt
  have chunk : word.toNat = _ := chunk_toNat first second third
  refine ⟨?_, ?_, ?_⟩ <;> apply UInt8.toNat_inj.mp
  · rw [output_first]
    omega
  · rw [output_second]
    omega
  · rw [output_third]
    omega

/-- The loop appends the encoded bytes to its result. -/
theorem decodeLoop_encode (data : Bytes) (buffer : UInt32) (result : Bytes) :
    decodeLoop (encode data) buffer 0 result = .ok (result ++ data) := by
  induction data using encode.induct generalizing buffer result with
  | case1 => rw [encode, decodeLoop, List.append_nil]
  | case2 first =>
      obtain ⟨byte1, -⟩ := chunk_outputs first 0 0 buffer
      have word : first.toUInt32 <<< 16 ||| (0 : UInt8).toUInt32 <<< 8 ||| (0 : UInt8).toUInt32 =
          first.toUInt32 <<< 16 := by simp
      rw [word] at byte1
      rw [encode, decodeLoop_symbol, if_neg (by decide), decodeLoop_symbol, if_pos (by decide),
        decodeLoop]
      exact congrArg (fun byte => Except.ok (result ++ [byte])) byte1
  | case3 first second =>
      obtain ⟨byte1, byte2, -⟩ := chunk_outputs first second 0 buffer
      have word : first.toUInt32 <<< 16 ||| second.toUInt32 <<< 8 ||| (0 : UInt8).toUInt32 =
          first.toUInt32 <<< 16 ||| second.toUInt32 <<< 8 := by simp
      rw [word] at byte1 byte2
      rw [encode, decodeLoop_symbol, if_neg (by decide), decodeLoop_symbol, if_pos (by decide),
        decodeLoop_symbol, if_pos (by decide), decodeLoop, List.append_assoc]
      exact congrArg₂ (fun byte next => Except.ok (result ++ [byte, next])) byte1 byte2
  | case4 first second third rest ih =>
      obtain ⟨byte1, byte2, byte3⟩ := chunk_outputs first second third buffer
      rw [encode, decodeLoop_symbol, if_neg (by decide), decodeLoop_symbol, if_pos (by decide),
        decodeLoop_symbol, if_pos (by decide), decodeLoop_symbol, if_pos (by decide)]
      refine (ih _ _).trans (congrArg Except.ok ?_)
      rw [List.append_assoc, List.append_assoc, List.append_assoc]
      exact congrArg (result ++ ·) (congrArg₂ (fun byte next => byte :: next) byte1
        (congrArg₂ (fun byte next => byte :: next :: rest) byte2 byte3))

/-- Every symbol is a letter, a digit, a hyphen or an underscore. -/
theorem encode_alphabet (data : Bytes) : ∀ char ∈ encode data, char ∈ encodeTable := by
  have listed (word shift : UInt32) : symbol word shift ∈ encodeTable :=
    (decodeTable_encodeTable _ (digit_lt word shift)).2.2
  induction data using encode.induct with
  | case1 => simp [encode]
  | case2 first => simp [encode, listed]
  | case3 first second => simp [encode, listed]
  | case4 first second third rest ih => simpa [encode, listed] using ih

theorem notMem_encodeTable : padding ∉ encodeTable ∧ (0x2C : UInt8) ∉ encodeTable ∧
    (0x22 : UInt8) ∉ encodeTable ∧ (0x5C : UInt8) ∉ encodeTable := by decide

/-- The encoding takes four characters for each three bytes. -/
theorem encode_length_eq (data : Bytes) : (encode data).length = (4 * data.length + 2) / 3 := by
  induction data using encode.induct with
  | case1 => rfl
  | case2 first => simp [encode]
  | case3 first second => simp [encode]
  | case4 first second third rest ih =>
      simp only [encode, List.length_cons, ih]
      omega

/-- The length of an encoding never leaves the remainder one. -/
theorem encode_length (data : Bytes) :
    (encode data).length % 4 = 0 ∨ (encode data).length % 4 = 2 ∨ (encode data).length % 4 = 3 := by
  rw [encode_length_eq]
  omega

/-- The encoding is no shorter than its data. -/
theorem length_le_encode (data : Bytes) : data.length ≤ (encode data).length := by
  rw [encode_length_eq]
  omega

/-- Decoding strips the padding from a body of the alphabet. -/
theorem rdropWhile_padding {body : Bytes} (safe : ∀ char ∈ body, char ∈ encodeTable) (count : Nat) :
    (body ++ List.replicate count padding).rdropWhile (· = padding) = body := by
  induction count with
  | zero =>
      rw [List.replicate_zero, List.append_nil, List.rdropWhile_eq_self_iff]
      intro nonempty last
      exact notMem_encodeTable.1 (of_decide_eq_true last ▸ safe _ (List.getLast_mem nonempty))
  | succ count ih =>
      rw [List.replicate_succ', ← List.append_assoc, List.rdropWhile_concat_pos _ _ _ (by simp), ih]

/-- Decoding inverts the encoding with up to two padding characters. -/
theorem decode_encode_append (data : Bytes) {count : Nat} (few : count ≤ 2) :
    decode (encode data ++ List.replicate count padding) = .ok data := by
  have unpadded : padding ∉ encode data :=
    fun member => notMem_encodeTable.1 (encode_alphabet data _ member)
  have length := encode_length data
  unfold decode
  dsimp only
  rw [rdropWhile_padding (encode_alphabet data), if_neg, decodeLoop_encode, List.nil_append]
  rw [List.length_append, List.length_replicate]
  rintro (many | inside | odd)
  · omega
  · exact unpadded inside
  · omega

theorem decode_encode (data : Bytes) : decode (encode data) = .ok data := by
  have plain := decode_encode_append data (Nat.zero_le 2)
  rwa [List.replicate_zero, List.append_nil] at plain

theorem decode_encodePadded (data : Bytes) : decode (encodePadded data) = .ok data := by
  have length := encode_length data
  exact decode_encode_append data (by omega)

/-- Only the empty byte string has an empty encoding. -/
theorem encode_eq_nil {data : Bytes} : encode data = [] ↔ data = [] := by
  induction data using encode.induct <;> simp [encode]

end PrivacyPass.Base64Url
