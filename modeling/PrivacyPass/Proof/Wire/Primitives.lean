import PrivacyPass.Construction.Serialization

/-
This file states what each primitive read consumes and what each primitive write appends.
-/

namespace PrivacyPass

open Library

/-- The library has sizes for these five types. -/
def TokenType.known : List TokenType :=
  [.voprfP384Sha384, .blindRsa, .voprfRistretto255Sha512, .partiallyBlindRsa, .arcP256]

/-- A type without a size of its own is none of the known types. -/
theorem TokenTypeInfo.forType_unknown {type : TokenType} (unknown : type ∉ TokenType.known) :
    forType type = ⟨type, 0, 0, 0, false⟩ := by
  simp only [TokenType.known, List.mem_cons, List.not_mem_nil, or_false, not_or] at unknown
  obtain ⟨voprf, blindRsa, ristretto, partiallyBlind, arc⟩ := unknown
  rw [forType, if_neg voprf, if_neg blindRsa, if_neg ristretto, if_neg partiallyBlind, if_neg arc]

/-- A known type has a blinded element and an authenticator. -/
theorem TokenTypeInfo.forType_known {type : TokenType} (known : type ∈ TokenType.known) :
    (forType type).blindedElementSize ≠ 0 ∧ (forType type).authenticatorSize ≠ 0 := by
  simp only [TokenType.known, List.mem_cons, List.not_mem_nil, or_false] at known
  rcases known with rfl | rfl | rfl | rfl | rfl <;> decide

/-- Exactly the known types have a blinded element. -/
theorem TokenTypeInfo.blindedElementSize_ne_zero_iff {type : TokenType} :
    (forType type).blindedElementSize ≠ 0 ↔ type ∈ TokenType.known := by
  constructor
  · intro nonzero
    by_contra unknown
    exact nonzero (by rw [forType_unknown unknown])
  · exact fun known => (forType_known known).1

/-- Exactly the known types have an authenticator. -/
theorem TokenTypeInfo.authenticatorSize_ne_zero_iff {type : TokenType} :
    (forType type).authenticatorSize ≠ 0 ↔ type ∈ TokenType.known := by
  constructor
  · intro nonzero
    by_contra unknown
    exact nonzero (by rw [forType_unknown unknown])
  · exact fun known => (forType_known known).2

theorem length_toUInt16 {bytes : Bytes} (fits : bytes.length ≤ 65535) :
    bytes.length.toUInt16.toNat = bytes.length :=
  UInt16.toNat_ofNat_of_lt' (Nat.lt_succ_of_le fits)

theorem toUInt16_length {bytes : Bytes} {length : UInt16} (equal : bytes.length = length.toNat) :
    bytes.length.toUInt16 = length := by
  rw [equal]
  exact UInt16.ofNat_toNat

theorem length_toUInt8 {α : Type} {list : List α} (fits : list.length ≤ 255) :
    list.length.toUInt8.toNat = list.length :=
  UInt8.toNat_ofNat_of_lt' (Nat.lt_succ_of_le fits)

theorem toUInt8_length {α : Type} {list : List α} {length : UInt8}
    (equal : list.length = length.toNat) : list.length.toUInt8 = length := by
  rw [equal]
  exact UInt8.ofNat_toNat

/-- A byte string goes to the wire behind its length. -/
def sizedWire (bytes : Bytes) : Bytes := u16Bytes bytes.length.toUInt16 ++ bytes

theorem sizedWire_length (bytes : Bytes) : (sizedWire bytes).length = 2 + bytes.length := by
  simp [sizedWire, u16Bytes]
  omega

namespace ByteReader

theorem readU8_reads (value : UInt8) : Reads readU8 [value] value := by
  intro before rest
  rfl

theorem readU8_only : ReadsOnly readU8 fun word value => word = [value] := by
  intro cursor value final success
  unfold readU8 at success
  split at success
  · next head rest shape =>
      obtain ⟨rfl, rfl⟩ := Prod.mk.inj success |>.imp Option.some.inj id
      exact ⟨_, rfl, shape⟩
  · cases success

/-- The two bytes of a 16-bit integer join to the integer. -/
theorem u16_toNat (b0 b1 : UInt8) :
    ((b0.toUInt16 <<< 8) ||| b1.toUInt16).toNat = b0.toNat * 256 + b1.toNat := by
  have small := b0.toNat_lt
  have fits : b0.toNat <<< 8 < 65536 := by rw [Nat.shiftLeft_eq]; omega
  rw [UInt16.toNat_or, UInt16.toNat_shiftLeft, UInt8.toNat_toUInt16, UInt8.toNat_toUInt16,
    ← BigEndian.shiftLeft_or_byte]
  change b0.toNat <<< 8 % 65536 ||| b1.toNat = _
  rw [Nat.mod_eq_of_lt fits]

theorem u16Bytes_join (value : UInt16) :
    ((value >>> 8).toUInt8.toUInt16 <<< 8) ||| value.toUInt8.toUInt16 = value := by
  apply UInt16.toNat_inj.mp
  have small := value.toNat_lt
  rw [u16_toNat]
  simp [Nat.shiftRight_eq_div_pow]
  omega

theorem join_u16Bytes (b0 b1 : UInt8) :
    u16Bytes ((b0.toUInt16 <<< 8) ||| b1.toUInt16) = [b0, b1] := by
  have small0 := b0.toNat_lt
  have small1 := b1.toNat_lt
  have joined := u16_toNat b0 b1
  unfold u16Bytes
  congr 1
  · apply UInt8.toNat_inj.mp
    rw [UInt16.toNat_toUInt8, UInt16.toNat_shiftRight, joined, Nat.shiftRight_eq_div_pow]
    change (b0.toNat * 256 + b1.toNat) / 256 % 256 = b0.toNat
    omega
  · congr 1
    apply UInt8.toNat_inj.mp
    rw [UInt16.toNat_toUInt8, joined]
    omega

theorem readU16_reads (value : UInt16) : Reads readU16 (u16Bytes value) value := by
  intro before rest
  change (some _, _) = _
  rw [u16Bytes_join]
  rfl

theorem readU16_only : ReadsOnly readU16 fun word value => word = u16Bytes value := by
  intro cursor value final success
  unfold readU16 at success
  split at success
  · next b0 b1 rest shape =>
      obtain ⟨rfl, rfl⟩ := Prod.mk.inj success |>.imp Option.some.inj id
      exact ⟨_, rfl, by rw [join_u16Bytes, shape]; rfl⟩
  · cases success

theorem readBytes_reads (bytes : Bytes) : Reads (readBytes bytes.length) bytes bytes := by
  intro before rest
  simp [readBytes, remaining]

theorem readBytes_only (count : Nat) :
    ReadsOnly (readBytes count) fun word value => word = value ∧ value.length = count := by
  intro cursor value final success
  unfold readBytes at success
  split at success
  · cases success
  · next enough =>
      obtain ⟨rfl, rfl⟩ := Prod.mk.inj success |>.imp Option.some.inj id
      exact ⟨_, ⟨rfl, List.length_take_of_le (Nat.le_of_not_lt enough)⟩,
        (List.take_append_drop count cursor.rest).symm⟩

theorem readArray_reads {size : Nat} (array : FixedBytes size) :
    Reads (readArray size) array.val array := by
  rcases array with ⟨bytes, rfl⟩
  intro before rest
  simp [readArray]

theorem readArray_only (size : Nat) :
    ReadsOnly (readArray size) fun word array => word = array.val := by
  intro cursor value final success
  unfold readArray at success
  split at success
  · cases success
  · obtain ⟨rfl, rfl⟩ := Prod.mk.inj success |>.imp Option.some.inj id
    exact ⟨_, rfl, (List.take_append_drop size cursor.rest).symm⟩

section Varint

/-- Shifted bytes join to the number they spell. -/
theorem four_toNat (a : Nat) (b c d : UInt8) :
    a <<< 24 ||| b.toNat <<< 16 ||| c.toNat <<< 8 ||| d.toNat =
      ((a * 256 + b.toNat) * 256 + c.toNat) * 256 + d.toNat := by
  rw [← BigEndian.shiftLeft_or_byte, ← BigEndian.shiftLeft_or_byte, ← BigEndian.shiftLeft_or_byte]
  simp only [Nat.shiftLeft_or_distrib, ← Nat.shiftLeft_add]

/-- Eight shifted bytes join to the number they spell. -/
theorem eight_toNat (a : Nat) (b c d e f g h : UInt8) :
    a <<< 56 ||| b.toNat <<< 48 ||| c.toNat <<< 40 ||| d.toNat <<< 32 ||| e.toNat <<< 24 |||
        f.toNat <<< 16 ||| g.toNat <<< 8 ||| h.toNat =
      ((((((a * 256 + b.toNat) * 256 + c.toNat) * 256 + d.toNat) * 256 + e.toNat) * 256 +
        f.toNat) * 256 + g.toNat) * 256 + h.toNat := by
  rw [← four_toNat, ← four_toNat, ← BigEndian.shiftLeft_or_byte]
  simp only [Nat.shiftLeft_or_distrib, ← Nat.shiftLeft_add]

theorem masked_toNat (first : UInt8) : (first &&& 0x3F).toNat = first.toNat % 64 := by
  rw [UInt8.toNat_and]
  exact Nat.and_two_pow_sub_one_eq_mod first.toNat 6

theorem prefix_toNat (first : UInt8) : (first >>> 6).toNat = first.toNat / 64 := by
  rw [UInt8.toNat_shiftRight]
  exact Nat.shiftRight_eq_div_pow first.toNat 6

theorem varint2_toNat (first b1 : UInt8) :
    (((first &&& 0x3F).toUInt16 <<< 8) ||| b1.toUInt16).toUInt64.toNat =
      first.toNat % 64 * 256 + b1.toNat := by
  rw [UInt16.toNat_toUInt64, u16_toNat, masked_toNat]

theorem varint4_toNat (first b1 b2 b3 : UInt8) :
    (((first &&& 0x3F).toUInt32 <<< 24) ||| (b1.toUInt32 <<< 16) ||| (b2.toUInt32 <<< 8) |||
        b3.toUInt32).toUInt64.toNat =
      ((first.toNat % 64 * 256 + b1.toNat) * 256 + b2.toNat) * 256 + b3.toNat := by
  have small1 := b1.toNat_lt
  have small2 := b2.toNat_lt
  rw [UInt32.toNat_toUInt64, UInt32.toNat_or, UInt32.toNat_or, UInt32.toNat_or,
    UInt32.toNat_shiftLeft, UInt32.toNat_shiftLeft, UInt32.toNat_shiftLeft]
  simp only [UInt8.toNat_toUInt32, masked_toNat]
  change (first.toNat % 64) <<< 24 % 4294967296 ||| b1.toNat <<< 16 % 4294967296 |||
    b2.toNat <<< 8 % 4294967296 ||| b3.toNat = _
  rw [Nat.mod_eq_of_lt (a := (first.toNat % 64) <<< 24) (by rw [Nat.shiftLeft_eq]; omega),
    Nat.mod_eq_of_lt (a := b1.toNat <<< 16) (by rw [Nat.shiftLeft_eq]; omega),
    Nat.mod_eq_of_lt (a := b2.toNat <<< 8) (by rw [Nat.shiftLeft_eq]; omega), four_toNat]

theorem varint8_toNat (first b1 b2 b3 b4 b5 b6 b7 : UInt8) :
    (((first &&& 0x3F).toUInt64 <<< 56) ||| (b1.toUInt64 <<< 48) ||| (b2.toUInt64 <<< 40) |||
        (b3.toUInt64 <<< 32) ||| (b4.toUInt64 <<< 24) ||| (b5.toUInt64 <<< 16) |||
        (b6.toUInt64 <<< 8) ||| b7.toUInt64).toNat =
      ((((((first.toNat % 64 * 256 + b1.toNat) * 256 + b2.toNat) * 256 + b3.toNat) * 256 +
        b4.toNat) * 256 + b5.toNat) * 256 + b6.toNat) * 256 + b7.toNat := by
  have small (byte : UInt8) (shift : Nat) (low : shift ≤ 48) :
      byte.toNat <<< shift % 18446744073709551616 = byte.toNat <<< shift := by
    apply Nat.mod_eq_of_lt
    calc byte.toNat <<< shift = byte.toNat * 2 ^ shift := Nat.shiftLeft_eq _ _
      _ ≤ byte.toNat * 2 ^ 48 := Nat.mul_le_mul_left _ (Nat.pow_le_pow_right (by decide) low)
      _ < 18446744073709551616 := by have := byte.toNat_lt; omega
  simp only [UInt64.toNat_or, UInt64.toNat_shiftLeft, UInt8.toNat_toUInt64, masked_toNat]
  change (first.toNat % 64) <<< 56 % 18446744073709551616 |||
    b1.toNat <<< 48 % 18446744073709551616 ||| b2.toNat <<< 40 % 18446744073709551616 |||
    b3.toNat <<< 32 % 18446744073709551616 ||| b4.toNat <<< 24 % 18446744073709551616 |||
    b5.toNat <<< 16 % 18446744073709551616 ||| b6.toNat <<< 8 % 18446744073709551616 |||
    b7.toNat = _
  rw [small b1 48 (by decide), small b2 40 (by decide), small b3 32 (by decide),
    small b4 24 (by decide), small b5 16 (by decide), small b6 8 (by decide),
    Nat.mod_eq_of_lt (a := (first.toNat % 64) <<< 56) (by rw [Nat.shiftLeft_eq]; omega),
    eight_toNat]

/-- A tag with its low bits free joins to the shifted value by addition. -/
theorem tag_toNat (value shift : UInt64) (small : value.toNat / 2 ^ (shift.toNat % 64) < 64)
    (tag : UInt64) (high : 64 ∣ tag.toNat) (byte : tag.toNat ≤ 192) :
    ((tag ||| (value >>> shift)).toUInt8).toNat =
      tag.toNat + value.toNat / 2 ^ (shift.toNat % 64) := by
  obtain ⟨part, equal⟩ := high
  have joined : tag.toNat ||| value.toNat / 2 ^ (shift.toNat % 64) =
      tag.toNat + value.toNat / 2 ^ (shift.toNat % 64) := by
    have disjoint := Nat.shiftLeft_add_eq_or_of_lt (i := 6) small part
    rw [Nat.shiftLeft_eq] at disjoint
    rw [equal, Nat.mul_comm 64 part]
    exact disjoint.symm
  rw [UInt64.toNat_toUInt8, UInt64.toNat_or, UInt64.toNat_shiftRight, Nat.shiftRight_eq_div_pow,
    joined]
  omega

/-- Each byte of a value is a quotient of the value. -/
theorem byte_toNat (value shift : UInt64) :
    (value >>> shift).toUInt8.toNat = value.toNat / 2 ^ (shift.toNat % 64) % 256 := by
  rw [UInt64.toNat_toUInt8, UInt64.toNat_shiftRight, Nat.shiftRight_eq_div_pow]

/-- The format has four widths, and the two high bits of the first byte select one. -/
inductive VarintForm : Bytes → UInt64 → Prop
  | one (first : UInt8) (selected : first >>> 6 = 0) :
      VarintForm [first] (first &&& 0x3F).toUInt64
  | two (first b1 : UInt8) (selected : first >>> 6 = 1) :
      VarintForm [first, b1] (((first &&& 0x3F).toUInt16 <<< 8) ||| b1.toUInt16).toUInt64
  | four (first b1 b2 b3 : UInt8) (selected : first >>> 6 = 2) :
      VarintForm [first, b1, b2, b3] (((first &&& 0x3F).toUInt32 <<< 24) |||
        (b1.toUInt32 <<< 16) ||| (b2.toUInt32 <<< 8) ||| b3.toUInt32).toUInt64
  | eight (first b1 b2 b3 b4 b5 b6 b7 : UInt8) (selected : first >>> 6 = 3) :
      VarintForm [first, b1, b2, b3, b4, b5, b6, b7] (((first &&& 0x3F).toUInt64 <<< 56) |||
        (b1.toUInt64 <<< 48) ||| (b2.toUInt64 <<< 40) ||| (b3.toUInt64 <<< 32) |||
        (b4.toUInt64 <<< 24) ||| (b5.toUInt64 <<< 16) ||| (b6.toUInt64 <<< 8) ||| b7.toUInt64)

/-- The reader accepts each of the four forms. -/
theorem VarintForm.reads {word : Bytes} {value : UInt64} (form : VarintForm word value) :
    Reads readVarint word value := by
  intro before rest
  cases form <;> next selected => simp [readVarint, selected]

/-- The two high bits that are none of the first three numbers are the last one. -/
theorem selected_three {first : UInt8} (zero : first >>> 6 ≠ 0) (one : first >>> 6 ≠ 1)
    (two : first >>> 6 ≠ 2) : first >>> 6 = 3 := by
  have bound := first.toNat_lt
  have quotient := prefix_toNat first
  have different (digit : UInt8) (other : first >>> 6 ≠ digit) : first.toNat / 64 ≠ digit.toNat :=
    fun equal => other (UInt8.toNat_inj.mp (quotient.trans equal))
  have notZero : _ ≠ 0 := different 0 zero
  have notOne : _ ≠ 1 := different 1 one
  have notTwo : _ ≠ 2 := different 2 two
  apply UInt8.toNat_inj.mp
  rw [quotient]
  change _ = 3
  omega

/-- The reader accepts nothing but the four forms. -/
theorem readVarint_only : ReadsOnly readVarint VarintForm := by
  intro cursor value final success
  unfold readVarint at success
  split at success
  · cases success
  · next first tail shape =>
      dsimp only at success
      split at success
      · next selected =>
          obtain ⟨rfl, rfl⟩ := Prod.mk.inj success |>.imp Option.some.inj id
          exact ⟨_, .one first selected, shape⟩
      split at success
      · next selected =>
          split at success
          · obtain ⟨rfl, rfl⟩ := Prod.mk.inj success |>.imp Option.some.inj id
            exact ⟨_, .two first _ selected, shape⟩
          · cases success
      split at success
      · next selected =>
          split at success
          · obtain ⟨rfl, rfl⟩ := Prod.mk.inj success |>.imp Option.some.inj id
            exact ⟨_, .four first _ _ _ selected, shape⟩
          · cases success
      · next zero one two =>
          have selected := selected_three zero one two
          split at success
          · obtain ⟨rfl, rfl⟩ := Prod.mk.inj success |>.imp Option.some.inj id
            exact ⟨_, .eight first _ _ _ _ _ _ _ selected, shape⟩
          · cases success

/-- A first byte selects the width that its value spells. -/
theorem selected_of_toNat {first : UInt8} (digit : UInt8) (spelled : first.toNat / 64 = digit.toNat) :
    first >>> 6 = digit :=
  UInt8.toNat_inj.mp ((prefix_toNat first).trans spelled)

section LowBits

/-- The format has room for the low 62 bits of a value. -/
def lowBits (value : UInt64) : UInt64 := value &&& 0x3FFFFFFFFFFFFFFF

theorem lowBits_toNat (value : UInt64) : (lowBits value).toNat = value.toNat % 2 ^ 62 := by
  rw [lowBits, UInt64.toNat_and]
  exact Nat.and_two_pow_sub_one_eq_mod value.toNat 62

/-- The low 62 bits are the value exactly when the value fits them. -/
theorem lowBits_eq_self_iff {value : UInt64} : lowBits value = value ↔ value.toNat < 2 ^ 62 := by
  rw [← UInt64.toNat_inj, lowBits_toNat]
  exact Nat.mod_eq_iff_lt (by decide)

/-- The tag with both bits set covers the two high bits of a byte. -/
theorem tag_three (byte : Nat) (small : byte < 256) : 192 ||| byte = 192 + byte % 64 := by
  have low : byte % 64 < 2 ^ 6 := Nat.mod_lt _ (by decide)
  have split : byte = (byte / 64) <<< 6 ||| byte % 64 := by
    rw [← Nat.shiftLeft_add_eq_or_of_lt low, Nat.shiftLeft_eq]
    omega
  have bits : ∀ high < 4, 3 ||| high = 3 := by decide
  have covered : 3 ||| byte / 64 = 3 := bits _ (by omega)
  calc 192 ||| byte = 3 <<< 6 ||| ((byte / 64) <<< 6 ||| byte % 64) := by rw [← split]; rfl
    _ = (3 ||| byte / 64) <<< 6 ||| byte % 64 := by rw [← Nat.or_assoc, ← Nat.shiftLeft_or_distrib]
    _ = 192 + byte % 64 := by rw [covered, ← Nat.shiftLeft_add_eq_or_of_lt low]; rfl

/-- The first of eight bytes keeps six bits of the value. -/
theorem first_of_eight (value : UInt64) :
    ((0xC0 : UInt64) ||| (value >>> 56)).toUInt8.toNat = 192 + value.toNat / 2 ^ 56 % 64 := by
  have bound := value.toNat_lt
  have small : value.toNat / 2 ^ 56 < 256 := by omega
  rw [UInt64.toNat_toUInt8, UInt64.toNat_or, UInt64.toNat_shiftRight, Nat.shiftRight_eq_div_pow]
  change (192 ||| value.toNat / 2 ^ 56) % 256 = _
  rw [tag_three _ small]
  omega

/-- Eight bytes spell the low 62 bits of the value. -/
theorem eight_form_low (value : UInt64) :
    VarintForm [((0xC0 : UInt64) ||| (value >>> 56)).toUInt8, (value >>> 48).toUInt8, (value >>> 40).toUInt8,
      (value >>> 32).toUInt8, (value >>> 24).toUInt8, (value >>> 16).toUInt8, (value >>> 8).toUInt8,
      value.toUInt8] (lowBits value) := by
  have low : value.toUInt8.toNat = value.toNat % 256 := UInt64.toNat_toUInt8 value
  have tag := first_of_eight value
  have form := VarintForm.eight _ (value >>> 48).toUInt8 (value >>> 40).toUInt8
    (value >>> 32).toUInt8 (value >>> 24).toUInt8 (value >>> 16).toUInt8 (value >>> 8).toUInt8
    value.toUInt8 (selected_of_toNat 3 (by rw [tag]; change _ = 3; omega))
  convert form using 1
  apply UInt64.toNat_inj.mp
  rw [varint8_toNat, tag, low, lowBits_toNat]
  simp only [byte_toNat]
  change value.toNat % 4611686018427387904 = (((((((192 + value.toNat / 72057594037927936 % 64) % 64 * 256 +
    value.toNat / 281474976710656 % 256) * 256 + value.toNat / 1099511627776 % 256) * 256 +
    value.toNat / 4294967296 % 256) * 256 + value.toNat / 16777216 % 256) * 256 +
    value.toNat / 65536 % 256) * 256 + value.toNat / 256 % 256) * 256 + value.toNat % 256
  omega

end LowBits

section Written

variable {value : UInt64}

/-- A value of at most 6 bits is one byte. -/
theorem one_form (small : value.toNat ≤ 63) : VarintForm [value.toUInt8] value := by
  have low : value.toUInt8.toNat = value.toNat % 256 := UInt64.toNat_toUInt8 value
  have form := VarintForm.one value.toUInt8 (selected_of_toNat 0 (by change _ = 0; omega))
  have same : (value.toUInt8 &&& 0x3F).toUInt64 = value := by
    apply UInt64.toNat_inj.mp
    rw [UInt8.toNat_toUInt64, masked_toNat, low]
    omega
  rwa [same] at form

/-- A value of at most 14 bits is two bytes behind the tag 1. -/
theorem two_form (small : value.toNat ≤ 16383) :
    VarintForm [((0x40 : UInt64) ||| (value >>> 8)).toUInt8, value.toUInt8] value := by
  have low : value.toUInt8.toNat = value.toNat % 256 := UInt64.toNat_toUInt8 value
  have tag := tag_toNat value 8 (by change _ / 256 < 64; omega) 0x40 (by decide) (by decide)
  change _ = 64 + value.toNat / 256 at tag
  have form := VarintForm.two _ value.toUInt8
    (selected_of_toNat 1 (by rw [tag]; change _ = 1; omega))
  convert form using 1
  apply UInt64.toNat_inj.mp
  rw [varint2_toNat, tag, low]
  omega

/-- A value of at most 30 bits is four bytes behind the tag 2. -/
theorem four_form (small : value.toNat ≤ 1073741823) :
    VarintForm [((0x80 : UInt64) ||| (value >>> 24)).toUInt8, (value >>> 16).toUInt8, (value >>> 8).toUInt8,
      value.toUInt8] value := by
  have low : value.toUInt8.toNat = value.toNat % 256 := UInt64.toNat_toUInt8 value
  have tag := tag_toNat value 24 (by change _ / 16777216 < 64; omega) 0x80 (by decide) (by decide)
  change _ = 128 + value.toNat / 16777216 at tag
  have form := VarintForm.four _ (value >>> 16).toUInt8 (value >>> 8).toUInt8 value.toUInt8
    (selected_of_toNat 2 (by rw [tag]; change _ = 2; omega))
  convert form using 1
  apply UInt64.toNat_inj.mp
  rw [varint4_toNat, tag, low, byte_toNat, byte_toNat]
  change value.toNat = (((128 + value.toNat / 16777216) % 64 * 256 +
    value.toNat / 65536 % 256) * 256 + value.toNat / 256 % 256) * 256 + value.toNat % 256
  omega

end Written

/-- Every value is written in a form of its low 62 bits. -/
theorem varintBytes_form_low (value : UInt64) : VarintForm (varintBytes value) (lowBits value) := by
  have kept {bound : UInt64} (small : value ≤ bound) (fits : bound.toNat < 2 ^ 62) :
      lowBits value = value :=
    lowBits_eq_self_iff.mpr (Nat.lt_of_le_of_lt (UInt64.le_iff_toNat_le.mp small) fits)
  unfold varintBytes
  split
  · next one =>
      rw [kept one (by decide)]
      exact one_form (UInt64.le_iff_toNat_le.mp one)
  split
  · next two =>
      rw [kept two (by decide)]
      exact two_form (UInt64.le_iff_toNat_le.mp two)
  split
  · next four =>
      rw [kept four (by decide)]
      exact four_form (UInt64.le_iff_toNat_le.mp four)
  · exact eight_form_low value

/-- The shortest form of each value below the format's limit is one of the four forms. -/
theorem varintBytes_form (value : UInt64) (fits : value.toNat < 2 ^ 62) :
    VarintForm (varintBytes value) value := by
  have form := varintBytes_form_low value
  rwa [lowBits_eq_self_iff.mpr fits] at form

theorem varintBytes_length (value : UInt64) : (varintBytes value).length = varintSize value := by
  unfold varintBytes varintSize
  split
  · rfl
  split
  · rfl
  split <;> rfl

/-- No form of a value is shorter than the one that is written. -/
theorem varintBytes_shortest {word : Bytes} {value : UInt64} (form : VarintForm word value) :
    (varintBytes value).length ≤ word.length := by
  rw [varintBytes_length]
  cases form with
  | one first =>
      have low : (first &&& 0x3F).toUInt64 ≤ 0x3F := by
        rw [UInt64.le_iff_toNat_le, UInt8.toNat_toUInt64, masked_toNat]
        change _ ≤ 63
        omega
      rw [varintSize, if_pos low]
      exact le_rfl
  | two first b1 =>
      have low : (((first &&& 0x3F).toUInt16 <<< 8) ||| b1.toUInt16).toUInt64 ≤ 0x3FFF := by
        have small := b1.toNat_lt
        rw [UInt64.le_iff_toNat_le, varint2_toNat]
        change _ ≤ 16383
        omega
      rw [varintSize, if_pos low]
      split <;> simp
  | four first b1 b2 b3 =>
      have low : (((first &&& 0x3F).toUInt32 <<< 24) ||| (b1.toUInt32 <<< 16) |||
          (b2.toUInt32 <<< 8) ||| b3.toUInt32).toUInt64 ≤ 0x3FFFFFFF := by
        have small1 := b1.toNat_lt
        have small2 := b2.toNat_lt
        have small3 := b3.toNat_lt
        rw [UInt64.le_iff_toNat_le, varint4_toNat]
        change _ ≤ 1073741823
        omega
      rw [varintSize, if_pos low]
      split
      · simp
      split <;> simp
  | eight =>
      unfold varintSize
      split
      · simp
      split
      · simp
      split <;> simp

/-- The reader recovers each value below the format's limit from its shortest form. -/
theorem readVarint_reads (value : UInt64) (fits : value.toNat < 2 ^ 62) :
    Reads readVarint (varintBytes value) value :=
  (varintBytes_form value fits).reads

end Varint

end ByteReader

namespace ByteWriter

/-- The call succeeds on an owned writer and appends exactly this word. -/
def Appends (call : Write) (word : Bytes) : Prop :=
  ∀ data, call { data := data } = (true, { data := data ++ word })

/-- The calls together append exactly this word to an owned writer. -/
def Emits (calls : List Write) (word : Bytes) : Prop :=
  ∀ data, callAll calls { data := data } = { data := data ++ word }

theorem writeU8_appends (value : UInt8) : Appends (writeU8 value) [value] := fun _ => rfl

theorem writeU16_appends (value : UInt16) : Appends (writeU16 value) (u16Bytes value) :=
  fun _ => rfl

theorem writeBytes_appends (bytes : Bytes) : Appends (writeBytes bytes) bytes := fun _ => rfl

theorem writeArray_appends {size : Nat} (array : FixedBytes size) :
    Appends (writeArray array) array.val := fun _ => rfl

theorem Appends.both {first second : Write} {left right : Bytes} (one : Appends first left)
    (two : Appends second right) : Appends (both first second) (left ++ right) := by
  intro data
  simp only [ByteWriter.both, one data, two (data ++ left), List.append_assoc]

/-- A variable-length write appends the shortest form of its value. -/
theorem writeVarint_appends (value : UInt64) : Appends (writeVarint value) (varintBytes value) := by
  unfold writeVarint varintBytes
  split
  · exact writeU8_appends _
  split
  · exact (writeU8_appends _).both (writeU8_appends _)
  split
  · exact (writeU8_appends _).both ((writeU8_appends _).both
      ((writeU8_appends _).both (writeU8_appends _)))
  · exact (writeU8_appends _).both ((writeU8_appends _).both ((writeU8_appends _).both
      ((writeU8_appends _).both ((writeU8_appends _).both ((writeU8_appends _).both
        ((writeU8_appends _).both (writeU8_appends _)))))))

theorem emits_nil : Emits [] [] := by
  intro data
  simp [callAll]

theorem Appends.cons {call : Write} {calls : List Write} {word rest : Bytes}
    (head : Appends call word) (tail : Emits calls rest) : Emits (call :: calls) (word ++ rest) := by
  intro data
  rw [callAll, List.foldl_cons, head data]
  exact (tail _).trans (by rw [List.append_assoc])

theorem Emits.append {left right : List Write} {first second : Bytes} (one : Emits left first)
    (two : Emits right second) : Emits (left ++ right) (first ++ second) := by
  intro data
  rw [callAll, List.foldl_append, ← callAll, ← callAll, one data, two, List.append_assoc]

/-- A loop of write calls appends the concatenation of their words. -/
theorem emits_map {α : Type} {call : α → Write} {word : α → Bytes} (values : List α)
    (each : ∀ value ∈ values, Appends (call value) (word value)) :
    Emits (values.map call) (values.flatMap word) := by
  induction values with
  | nil => exact emits_nil
  | cons head tail ih =>
      exact (each head List.mem_cons_self).cons
        (ih fun value member => each value (List.mem_cons_of_mem _ member))

/-- A serializer returns the word that its calls append. -/
theorem Emits.build {calls : List Write} {word : Bytes} (emits : Emits calls word) :
    build calls = word := by
  rw [ByteWriter.build, emits []]
  rfl

end ByteWriter
end PrivacyPass
