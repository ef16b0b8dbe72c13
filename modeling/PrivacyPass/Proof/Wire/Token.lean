import PrivacyPass.Construction.Token
import PrivacyPass.Proof.Wire.Primitives

/-
This file proves which bytes a token and the input of its authenticator encode to.
-/

namespace PrivacyPass

open Library

/-- The input of the authenticator goes to the wire as its four fields. -/
def AuthenticatorInput.wire (input : AuthenticatorInput) : Bytes :=
  u16Bytes input.tokenType.value ++ (input.nonce.val ++ (input.challengeDigest.val ++
    input.tokenKeyId.val))

/-- The encoding has the fields in their order. -/
theorem AuthenticatorInput.build_calls (input : AuthenticatorInput) :
    ByteWriter.build input.calls = input.wire := by
  have emits := (ByteWriter.writeU16_appends input.tokenType.value).cons
    ((ByteWriter.writeArray_appends input.nonce).cons
      ((ByteWriter.writeArray_appends input.challengeDigest).cons
        ((ByteWriter.writeArray_appends input.tokenKeyId).cons ByteWriter.emits_nil)))
  rw [calls, emits.build, List.append_nil]
  rfl

theorem AuthenticatorInput.serialize_eq (input : AuthenticatorInput) :
    input.serialize = .ok input.wire := by
  rw [serialize, build_calls]

theorem AuthenticatorInput.wire_length (input : AuthenticatorInput) : input.wire.length = 98 := by
  simp [wire, u16Bytes, input.nonce.property, input.challengeDigest.property,
    input.tokenKeyId.property]

/-- Whatever the decoder accepts starts with the wire format of the input. -/
theorem AuthenticatorInput.deserialize_front {data : Bytes} {input : AuthenticatorInput}
    (success : deserialize data = .ok input) : ∃ rest, data = input.wire ++ rest := by
  obtain ⟨final, success⟩ := Decoder.run_eq_ok.mp success
  obtain ⟨type, afterType, _, rfl, typeRest, success⟩ := ByteReader.readU16_only.bind_eq_ok success
  obtain ⟨nonce, afterNonce, _, rfl, nonceRest, success⟩ :=
    (ByteReader.readArray_only 32).bind_eq_ok success
  obtain ⟨digest, afterDigest, _, rfl, digestRest, success⟩ :=
    (ByteReader.readArray_only 32).bind_eq_ok success
  obtain ⟨keyId, afterId, _, rfl, idRest, success⟩ :=
    (ByteReader.readArray_only 32).bind_eq_ok success
  obtain ⟨rfl, rfl⟩ := Decoder.pure_eq_ok.mp success
  refine ⟨afterId.rest, ?_⟩
  change data = _ at typeRest
  rw [typeRest, nonceRest, digestRest, idRest, wire]
  simp only [List.append_assoc]

/-- Whatever follows an input is ignored. -/
theorem AuthenticatorInput.deserialize_append (input : AuthenticatorInput) (rest : Bytes) :
    deserialize (input.wire ++ rest) = .ok input := by
  rw [deserialize, Decoder.run_eq_ok, wire]
  unfold Cursor.start decoder
  simp only [List.append_assoc]
  rw [((ByteReader.readU16_reads _).decodes _).bind_apply,
    ((ByteReader.readArray_reads _).decodes _).bind_apply,
    ((ByteReader.readArray_reads _).decodes _).bind_apply,
    ((ByteReader.readArray_reads _).decodes _).bind_apply]
  exact ⟨_, rfl⟩

namespace Token

/-- A token goes to the wire as the input of its authenticator and the authenticator itself. -/
def wire (token : Token) : Bytes :=
  u16Bytes token.tokenType.value ++ (token.nonce.val ++ (token.challengeDigest.val ++
    (token.tokenKeyId.val ++ token.authenticator)))

theorem wire_ne_nil (token : Token) : token.wire ≠ [] := List.cons_ne_nil _ _

theorem wire_length (token : Token) : token.wire.length = token.serializedSize := by
  simp [wire, serializedSize, u16Bytes, token.nonce.property, token.challengeDigest.property,
    token.tokenKeyId.property]
  omega

theorem serialize_eq (token : Token) : token.serialize = .ok token.wire := by
  have emits := (ByteWriter.writeU16_appends token.tokenType.value).cons
    ((ByteWriter.writeArray_appends token.nonce).cons
      ((ByteWriter.writeArray_appends token.challengeDigest).cons
        ((ByteWriter.writeArray_appends token.tokenKeyId).cons
          ((ByteWriter.writeBytes_appends token.authenticator).cons ByteWriter.emits_nil))))
  rw [serialize, emits.build, List.append_nil]
  rfl

/-- The token has a known type and an authenticator of its size. -/
def Sized (token : Token) : Prop :=
  isValidTokenType token.tokenType.value = true ∧
    token.authenticator.length = (TokenTypeInfo.forType token.tokenType).authenticatorSize

theorem isValidTokenType_iff {type : UInt16} :
    isValidTokenType type = true ↔ (⟨type⟩ : TokenType) ∈ TokenType.known := by
  simp [isValidTokenType, TokenType.known, or_assoc]

/-- Every known type has an authenticator. -/
theorem authenticatorSize_ne_zero {type : UInt16} (valid : isValidTokenType type = true) :
    (TokenTypeInfo.forType ⟨type⟩).authenticatorSize ≠ 0 :=
  (TokenTypeInfo.forType_known (isValidTokenType_iff.mp valid)).2

/-- The validation accepts exactly the sized tokens. -/
theorem validate_iff {token : Token} : token.validate = .ok () ↔ token.Sized := by
  rw [Sized, isValidTokenType_iff, validate]
  by_cases known : token.tokenType ∈ TokenType.known
  · rw [if_neg (TokenTypeInfo.forType_known known).2]
    by_cases size : token.authenticator.length =
        (TokenTypeInfo.forType token.tokenType).authenticatorSize
    · rw [if_neg (not_not.mpr size)]
      exact iff_of_true rfl ⟨known, size⟩
    · rw [if_pos size]
      exact iff_of_false (by simp) fun sized => size sized.2
  · rw [if_pos (not_not.mp (mt TokenTypeInfo.authenticatorSize_ne_zero_iff.mp known))]
    exact iff_of_false (by simp) fun sized => known sized.1

/-- A sized token is decoded from its wire format. -/
theorem deserialize_wire {token : Token} (sized : token.Sized) :
    deserialize token.wire = .ok token := by
  obtain ⟨valid, size⟩ := sized
  have known := authenticatorSize_ne_zero valid
  have read : Reads (ByteReader.readBytes
      (TokenTypeInfo.forType token.tokenType).authenticatorSize) token.authenticator
      token.authenticator := by
    rw [← size]
    exact ByteReader.readBytes_reads token.authenticator
  have enough : ¬ token.authenticator.length <
      (TokenTypeInfo.forType token.tokenType).authenticatorSize := by
    rw [size]
    exact lt_irrefl _
  have whole := read.decodes (⟨.unexpectedEnd, "Failed to read authenticator"⟩ : Error)
    ([] ++ u16Bytes token.tokenType.value ++ token.nonce.val ++ token.challengeDigest.val ++
      token.tokenKeyId.val) []
  rw [List.append_nil] at whole
  rw [deserialize, Decoder.run_eq_ok, wire]
  unfold Cursor.start decoder
  rw [((ByteReader.readU16_reads _).decodes _).bind_apply,
    Decoder.reject_bind (by simp [valid]), ((ByteReader.readArray_reads _).decodes _).bind_apply,
    ((ByteReader.readArray_reads _).decodes _).bind_apply,
    ((ByteReader.readArray_reads _).decodes _).bind_apply, Decoder.reject_bind known,
    Decoder.bind_ok (Decoder.unread_apply _), Decoder.reject_bind enough, Decoder.bind_ok whole,
    Decoder.finish_bind]
  exact ⟨_, rfl⟩

/-- The decoder accepts nothing but sized tokens in their wire format. -/
theorem deserialize_only {data : Bytes} {token : Token} (success : deserialize data = .ok token) :
    data = token.wire ∧ token.Sized := by
  obtain ⟨final, success⟩ := Decoder.run_eq_ok.mp success
  obtain ⟨type, afterType, _, rfl, typeRest, success⟩ := ByteReader.readU16_only.bind_eq_ok success
  obtain ⟨valid, success⟩ := Decoder.reject_bind_eq_ok success
  obtain ⟨nonce, afterNonce, _, rfl, nonceRest, success⟩ :=
    (ByteReader.readArray_only 32).bind_eq_ok success
  obtain ⟨digest, afterDigest, _, rfl, digestRest, success⟩ :=
    (ByteReader.readArray_only 32).bind_eq_ok success
  obtain ⟨keyId, afterId, _, rfl, idRest, success⟩ :=
    (ByteReader.readArray_only 32).bind_eq_ok success
  obtain ⟨-, success⟩ := Decoder.reject_bind_eq_ok success
  obtain ⟨remaining, moved, unread, success⟩ := Decoder.bind_eq_ok.mp success
  cases unread
  obtain ⟨-, success⟩ := Decoder.reject_bind_eq_ok success
  obtain ⟨authenticator, last, _, ⟨rfl, size⟩, authenticatorRest, success⟩ :=
    (ByteReader.readBytes_only _).bind_eq_ok success
  obtain ⟨done, success⟩ := Decoder.finish_bind_eq_ok success
  obtain ⟨rfl, rfl⟩ := Decoder.pure_eq_ok.mp success
  refine ⟨?_, Bool.of_not_eq_false valid, size⟩
  change data = _ at typeRest
  rw [typeRest, nonceRest, digestRest, idRest, authenticatorRest, done, List.append_nil]
  rfl

/-- Data of the right length is the wire format of a token. -/
theorem exists_wire {type : UInt16} {rest : Bytes}
    (length : rest.length = 96 + (TokenTypeInfo.forType ⟨type⟩).authenticatorSize) :
    ∃ token : Token, token.wire = u16Bytes type ++ rest ∧ token.tokenType = ⟨type⟩ ∧
      token.authenticator.length = (TokenTypeInfo.forType token.tokenType).authenticatorSize := by
  refine ⟨⟨⟨type⟩, ⟨rest.take 32, by rw [List.length_take]; omega⟩,
    ⟨(rest.drop 32).take 32, by rw [List.length_take, List.length_drop]; omega⟩,
    ⟨(rest.drop 64).take 32, by rw [List.length_take, List.length_drop]; omega⟩, rest.drop 96⟩,
    ?_, rfl, ?_⟩
  · have third : (rest.drop 64).take 32 ++ rest.drop 96 = rest.drop 64 := by
      have split := List.take_append_drop 32 (rest.drop 64)
      rwa [List.drop_drop] at split
    have second : (rest.drop 32).take 32 ++ rest.drop 64 = rest.drop 32 := by
      have split := List.take_append_drop 32 (rest.drop 32)
      rwa [List.drop_drop] at split
    rw [wire]
    dsimp only
    rw [third, second, List.take_append_drop]
  · dsimp only
    rw [List.length_drop]
    omega

/-- A token crosses the wire in one format, which is the input of its authenticator and the
authenticator. -/
theorem token_format :
    (∀ data, (∃ token, deserialize data = .ok token) ↔ ∃ type rest, data = u16Bytes type ++ rest ∧
      (⟨type⟩ : TokenType) ∈ TokenType.known ∧
        data.length = 98 + (TokenTypeInfo.forType ⟨type⟩).authenticatorSize) ∧
    (∀ data token, deserialize data = .ok token →
      token.validate = .ok () ∧ token.serialize = .ok data) ∧
    (∀ token : Token, token.validate = .ok () →
      ∃ bytes, token.serialize = .ok bytes ∧ deserialize bytes = .ok token) ∧
    ∀ token : Token, ∃ input, token.authenticatorInput.serialize = .ok input ∧
      token.serialize = .ok (input ++ token.authenticator) := by
  refine ⟨fun data => ⟨?_, ?_⟩, fun data token success => ?_, fun token valid => ?_, fun token => ?_⟩
  · intro ⟨token, success⟩
    obtain ⟨rfl, valid, size⟩ := deserialize_only success
    refine ⟨token.tokenType.value, _, rfl, isValidTokenType_iff.mp valid, ?_⟩
    rw [wire_length, serializedSize, size]
  · rintro ⟨type, rest, rfl, known, length⟩
    rw [List.length_append, u16Bytes, List.length_cons, List.length_singleton] at length
    obtain ⟨token, equal, typed, size⟩ := @exists_wire type rest (by omega)
    refine ⟨token, ?_⟩
    rw [← equal]
    exact deserialize_wire ⟨isValidTokenType_iff.mpr (by rw [typed]; exact known), size⟩
  · obtain ⟨rfl, sized⟩ := deserialize_only success
    exact ⟨validate_iff.mpr sized, serialize_eq token⟩
  · exact ⟨_, serialize_eq token, deserialize_wire (validate_iff.mp valid)⟩
  · refine ⟨_, AuthenticatorInput.serialize_eq _, ?_⟩
    rw [serialize_eq, wire, AuthenticatorInput.wire]
    simp only [authenticatorInput, List.append_assoc]

/-- A token of zeros is read back from what it is written to. -/
theorem token_format_zero : ∃ bytes,
    (⟨.arcP256, .zero 32, .zero 32, .zero 32, List.replicate 65 0⟩ : Token).serialize = .ok bytes ∧
      deserialize bytes =
        .ok ⟨.arcP256, .zero 32, .zero 32, .zero 32, List.replicate 65 0⟩ :=
  token_format.2.2.1 _ rfl

end Token
end PrivacyPass
