import PrivacyPass.Library.BitString
import PrivacyPass.Proof.Wire.Base64Url

/-
This file proves which texts base64url decoding accepts and which bytes it reads from them.
-/

namespace PrivacyPass.Base64Url

open Library

section Alphabet

/-- The letters, the digits, the hyphen and the underscore are safe in a URL. -/
def isUrlSafe (char : UInt8) : Bool :=
  (0x41 ≤ char && char ≤ 0x5A) || (0x61 ≤ char && char ≤ 0x7A) || (0x30 ≤ char && char ≤ 0x39) ||
    char = 0x2D || char = 0x5F

theorem isUrlSafe_encodeTable : ∀ char ∈ encodeTable, isUrlSafe char = true := by decide +kernel

/-- The decoding table marks every character outside the alphabet. -/
theorem decodeTable_other (number : Nat) :
    number.toUInt8 ∈ encodeTable ∨ decodeTable.getD number 255 = 255 := by
  have table : ∀ entry ∈ decodeTable.zipIdx,
      entry.1 = 255 ∨ encodeTable[entry.1.toNat]? = some entry.2.toUInt8 := by decide +kernel
  rw [List.getD_eq_getElem?_getD]
  cases found : decodeTable[number]? with
  | none => exact .inr rfl
  | some value =>
      rcases table _ (List.mk_mem_zipIdx_iff_getElem?.mpr found) with other | listed
      · exact .inr other
      · exact .inl (List.mem_of_getElem? listed)

/-- The six bits that a character of the alphabet stands for. -/
def sextet (char : UInt8) : List Bool := BitString.ofNat 6 (encodeTable.idxOf char)

/-- The decoding table gives each character its place in the alphabet. -/
theorem decodeTable_member {char : UInt8} (member : char ∈ encodeTable) :
    decodeTable.getD char.toNat 255 = (encodeTable.idxOf char).toUInt8 ∧
      encodeTable.idxOf char < 64 ∧ (encodeTable.idxOf char).toUInt8 ≠ 255 := by
  have inside : encodeTable.idxOf char < 64 := List.idxOf_lt_length_of_mem member
  have placed : encodeTable.getD (encodeTable.idxOf char) 0 = char := by
    rw [List.getD_eq_getElem _ _ (List.idxOf_lt_length_of_mem member), List.getElem_idxOf]
  obtain ⟨decoded, valid, -⟩ := decodeTable_encodeTable _ inside
  rw [placed] at decoded
  exact ⟨decoded, inside, valid⟩

theorem decodeTable_notMember {char : UInt8} (absent : char ∉ encodeTable) :
    decodeTable.getD char.toNat 255 = 255 := by
  rcases decodeTable_other char.toNat with member | marked
  · rw [show char.toNat.toUInt8 = char from UInt8.ofNat_toNat] at member
    exact absurd member absent
  · exact marked

end Alphabet

section Register

/-- The buffer keeps the low bits of the number that was pushed together. -/
theorem buffer_toNat (buffer : UInt32) {digit : Nat} (small : digit < 64) :
    ((buffer <<< 6) ||| digit.toUInt8.toUInt32).toNat = (buffer.toNat * 64 + digit) % 4294967296 := by
  have value : digit.toUInt8.toUInt32.toNat = digit := by
    rw [UInt8.toNat_toUInt32]
    change digit % 256 = digit
    omega
  rw [push_toNat buffer (by rwa [value]), value]

/-- The low bits of the buffer end with the bits of the last character. -/
theorem buffer_bits (buffer : UInt32) {held digit : Nat} (few : held < 8) (small : digit < 64) :
    BitString.ofNat (held + 6) ((buffer <<< 6) ||| digit.toUInt8.toUInt32).toNat =
      BitString.ofNat held buffer.toNat ++ BitString.ofNat 6 digit := by
  rw [← BitString.ofNat_push held buffer.toNat (show digit < 2 ^ 6 from small), buffer_toNat buffer small]
  apply BitString.ofNat_congr
  exact Nat.mod_mod_of_dvd _ (Nat.pow_dvd_pow 2 (show held + 6 ≤ 32 by omega))

/-- The byte above the remaining bits is the one that leaves the buffer. -/
theorem output_bits (buffer bits : UInt32) (few : bits.toNat < 8) :
    BitString.ofNat (8 + bits.toNat) buffer.toNat =
      BitString.ofNat 8 (output bits buffer).toNat ++ BitString.ofNat bits.toNat buffer.toNat := by
  rw [BitString.ofNat_add]
  congr 1
  apply BitString.ofNat_congr
  rw [output, output_toNat, Nat.mod_eq_of_lt (show bits.toNat < 32 by omega)]
  exact (Nat.mod_mod _ 256).symm

/-- The loop reads the bytes of the bits that it holds and of the bits of the text. -/
theorem decodeLoop_eq {text : Bytes} (safe : ∀ char ∈ text, char ∈ encodeTable) (buffer bits : UInt32)
    (few : bits.toNat < 8) (result : Bytes) :
    decodeLoop text buffer bits result = .ok (result ++ BitString.bytes
      ((bits.toNat + 6 * text.length) / 8)
      (BitString.ofNat bits.toNat buffer.toNat ++ text.flatMap sextet)) := by
  induction text generalizing buffer bits result with
  | nil =>
      rw [decodeLoop, List.length_nil, Nat.mul_zero, Nat.add_zero, Nat.div_eq_of_lt few, BitString.bytes,
        List.append_nil]
  | cons char text ih =>
      obtain ⟨decoded, small, valid⟩ := decodeTable_member (safe char List.mem_cons_self)
      have rest := fun other member => safe other (List.mem_cons_of_mem char member)
      have pushed := buffer_bits buffer few small
      have added : (bits + 6).toNat = bits.toNat + 6 := by
        rw [UInt32.toNat_add]
        change (bits.toNat + 6) % 4294967296 = _
        omega
      rw [decodeLoop, decoded]
      dsimp only
      rw [if_neg valid, List.flatMap_cons, List.length_cons, ← List.append_assoc, sextet, ← pushed]
      generalize buffer <<< 6 ||| (encodeTable.idxOf char).toUInt8.toUInt32 = buffer
      split
      · next full =>
          -- eight of the held bits leave the buffer as one byte
          have enough : 8 ≤ bits.toNat + 6 := added ▸ UInt32.le_iff_toNat_le.mp full
          have left : (bits + 6 - 8).toNat = bits.toNat - 2 := by
            rw [UInt32.toNat_sub_of_le _ _ full, added]
            change bits.toNat + 6 - 8 = _
            omega
          have count : (bits.toNat + 6 * (text.length + 1)) / 8 =
              ((bits + 6 - 8).toNat + 6 * text.length) / 8 + 1 := by omega
          have width : bits.toNat + 6 = 8 + (bits + 6 - 8).toNat := by omega
          rw [ih rest _ _ (by omega), count, width, output_bits _ _ (by omega),
            List.append_assoc (BitString.ofNat _ _), BitString.bytes_succ, List.append_assoc]
          rfl
      · next few =>
          have short : (bits + 6).toNat < 8 := by
            rw [ge_iff_le, UInt32.le_iff_toNat_le] at few
            exact Nat.lt_of_not_le few
          rw [ih rest _ _ short, added, Nat.mul_add, Nat.mul_one]
          congr 4
          omega

/-- The loop ends at a character outside the alphabet. -/
theorem decodeLoop_ok {text : Bytes} {buffer bits : UInt32} {result bytes : Bytes}
    (decoded : decodeLoop text buffer bits result = .ok bytes) : ∀ char ∈ text, char ∈ encodeTable := by
  induction text generalizing buffer bits result with
  | nil => simp
  | cons char text ih =>
      by_cases member : char ∈ encodeTable
      · rw [decodeLoop] at decoded
        dsimp only at decoded
        rw [if_neg (by
          obtain ⟨known, -, valid⟩ := decodeTable_member member
          rw [known]
          exact valid)] at decoded
        split at decoded
        · exact List.forall_mem_cons.mpr ⟨member, ih decoded⟩
        · exact List.forall_mem_cons.mpr ⟨member, ih decoded⟩
      · rw [decodeLoop, decodeTable_notMember member] at decoded
        cases decoded

end Register

section Language

/-- The text is its body with at most two padding characters behind it. -/
structure Spells (text body : Bytes) : Prop where
  padded : ∃ count ≤ 2, text = body ++ List.replicate count padding
  safe : ∀ char ∈ body, char ∈ encodeTable
  length : body.length % 4 ≠ 1

theorem append_stripped (text : Bytes) : ∃ count, text = text.rdropWhile (· = padding) ++
    List.replicate count padding := by
  induction text using List.reverseRecOn with
  | nil => exact ⟨0, rfl⟩
  | append_singleton text char ih =>
      by_cases pad : char = padding
      · obtain ⟨count, split⟩ := ih
        refine ⟨count + 1, ?_⟩
        rw [List.rdropWhile_concat_pos _ _ _ (by simpa using pad), List.replicate_succ',
          ← List.append_assoc, ← split, pad]
      · refine ⟨0, ?_⟩
        rw [List.rdropWhile_concat_neg _ _ _ (by simpa using pad), List.replicate_zero, List.append_nil]

/-- Decoding accepts exactly the texts that spell a body, and it reads the full bytes of the bits of
the body. -/
theorem decode_eq_ok {text result : Bytes} : decode text = .ok result ↔ ∃ body, Spells text body ∧
    result = BitString.bytes (6 * body.length / 8) (body.flatMap sextet) := by
  have read {body : Bytes} (safe : ∀ char ∈ body, char ∈ encodeTable) : decodeLoop body 0 0 [] =
      .ok (BitString.bytes (6 * body.length / 8) (body.flatMap sextet)) := by
    rw [decodeLoop_eq safe 0 0 (by decide), List.nil_append]
    congr 2
    change (0 + 6 * body.length) / 8 = _
    rw [Nat.zero_add]
  constructor
  · intro decoded
    unfold decode at decoded
    dsimp only at decoded
    split at decoded
    · cases decoded
    · next good =>
        rw [not_or, not_or] at good
        obtain ⟨count, split⟩ := append_stripped text
        have safe := decodeLoop_ok decoded
        have few : text.length - (text.rdropWhile (· = padding)).length = count := by
          have whole := congrArg List.length split
          rw [List.length_append, List.length_replicate] at whole
          omega
        refine ⟨_, ⟨⟨count, by omega, split⟩, safe, good.2.2⟩, ?_⟩
        rw [read safe] at decoded
        exact (Except.ok.inj decoded).symm
  · rintro ⟨body, ⟨⟨count, few, rfl⟩, safe, length⟩, rfl⟩
    have unpadded : padding ∉ body := fun member => notMem_encodeTable.1 (safe _ member)
    unfold decode
    dsimp only
    rw [rdropWhile_padding safe, if_neg, read safe]
    rw [List.length_append, List.length_replicate]
    rintro (many | inside | odd)
    · omega
    · exact unpadded inside
    · exact length odd

end Language

section RoundTrip

theorem encodePadded_length (data : Bytes) : (encodePadded data).length % 4 = 0 := by
  rw [encodePadded, List.length_append, List.length_replicate]
  omega

/-- Decoding inverts both encodings, and their lengths and characters are those of base64url. -/
theorem encode_decode (data : Bytes) :
    decode (encode data) = .ok data ∧ decode (encodePadded data) = .ok data ∧
      (encode data).length = (4 * data.length + 2) / 3 ∧
      (∀ char ∈ encode data, isUrlSafe char = true) ∧ (encodePadded data).length % 4 = 0 :=
  ⟨decode_encode data, decode_encodePadded data, encode_length_eq data,
    fun char member => isUrlSafe_encodeTable char (encode_alphabet data char member),
    encodePadded_length data⟩

end RoundTrip

end PrivacyPass.Base64Url
