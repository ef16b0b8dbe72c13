import PrivacyPass.Proof.Wire.Challenge

/-
This file compares the bytes that a challenge was decoded from with the bytes that it encodes to.
-/

namespace PrivacyPass.TokenChallenge

open Library

/-- A fresh challenge hashes its own encoding. -/
theorem digest_fresh [Crypto.HashBackend] {challenge : TokenChallenge} {bytes : Bytes}
    (fresh : challenge.cachedDigest = none) (encoded : challenge.serialize = .ok bytes) :
    challenge.digest.1 = Crypto.sha256 bytes := by
  unfold digest
  rw [fresh]
  simp only [encoded]
  cases Crypto.sha256 bytes <;> rfl

/-- Two encodings with the same leading fields agree exactly when their texts do. -/
theorem wire_text_injective {type : UInt16} {issuer left right : Bytes}
    {context : Option ChallengeDigest} :
    wire type issuer context left = wire type issuer context right ↔ left = right := by
  constructor
  · intro equal
    have tails := congrArg (List.drop 2) (List.append_cancel_left (List.append_cancel_left
      (List.append_cancel_left (List.append_cancel_left equal))))
    simpa [u16Bytes] using tails
  · rintro rfl
    rfl

/-- Two encodings that agree in the other fields agree exactly when their contexts do. -/
theorem wire_context_injective {type : UInt16} {issuer text : Bytes}
    {left right : Option ChallengeDigest} :
    wire type issuer left text = wire type issuer right text ↔ left = right := by
  constructor
  · intro equal
    have contexts : contextWire left = contextWire right :=
      List.append_cancel_right (List.append_cancel_left (List.append_cancel_left
        (List.append_cancel_left equal)))
    cases left with
    | none =>
        cases right with
        | none => rfl
        | some right => cases (List.cons.inj contexts).1
    | some left =>
        cases right with
        | none => cases (List.cons.inj contexts).1
        | some right => rw [Subtype.ext (List.cons.inj contexts).2]
  · rintro rfl
    rfl

/-- A decoded challenge encodes to its canonical wire form. -/
theorem serialize_create_pieces (type : UInt16) {issuer text : Bytes}
    (context : Option ChallengeDigest) (named : issuer ≠ []) (short : issuer.length ≤ 65535)
    (fits : text.length ≤ 65535) :
    (create ⟨type⟩ issuer context (Pieces.pieces comma text)).serialize =
      .ok (wire type issuer context (Pieces.canonical comma text)) := by
  have canonicalFits : (Pieces.canonical comma text).length ≤ 65535 :=
    (Pieces.canonical_length_le text).trans fits
  have encodable : (create ⟨type⟩ issuer context (Pieces.pieces comma text)).Encodable :=
    ⟨named, short, canonicalFits⟩
  exact serialize_ok encodable

/-- A decoded challenge encodes to the bytes on the wire without the empty entries of its text, and
to the very same bytes exactly when the text has no empty entry. -/
theorem deserialize_serialize [Crypto.HashBackend] {data : Bytes} {challenge : TokenChallenge}
    (success : deserialize data = .ok challenge) :
    ∃ type issuer context text, issuer.length ≤ 65535 ∧ text.length ≤ 65535 ∧
      data = wire type issuer context text ∧
      challenge.serialize = .ok (wire type issuer context (Pieces.canonical comma text)) ∧
      challenge.digest.1 = Crypto.sha256 (wire type issuer context (Pieces.canonical comma text)) ∧
      (challenge.serialize = .ok data ↔ text = [] ∨ [] ∉ text.splitOn comma) ∧
      (text = [] ∨ [] ∉ text.splitOn comma → challenge.digest.1 = Crypto.sha256 data) := by
  obtain ⟨type, issuer, context, text, origins, named, short, fits, entries, rfl, rfl⟩ :=
    deserialize_format success
  have kept := splitOriginInfo_pieces entries
  rw [List.nil_append] at kept
  subst kept
  have encoded := serialize_create_pieces type context named short fits
  have hashed := digest_fresh rfl encoded
  refine ⟨type, issuer, context, text, short, fits, rfl, encoded, hashed, ?_, ?_⟩
  · rw [encoded, ← Pieces.canonical_eq_iff, Except.ok.injEq, wire_text_injective]
  · intro nonempty
    rw [hashed, (Pieces.canonical_eq_iff text).mpr nonempty]

/-- These bytes decode to a challenge with the origin entries `a` and `b`. -/
def singleComma : Bytes := [0, 2, 0, 1, 0x69, 0, 0, 3, 0x61, 0x2C, 0x62]

/-- This backend knows the SHA-256 digest of one message. -/
abbrev singleCommaHash : Crypto.HashBackend where
  evpSha256 data := if data = singleComma then
    some ⟨BigEndian.toBytes 32 0xf3391f53028b31fce5dbd0c1625762812118a23319fe2602ab9ecedeefe79b4f,
      BigEndian.toBytes_length _ _⟩ else none
  evpSha384 _ := none

theorem singleComma_decodes : deserialize singleComma =
    .ok (create .blindRsa [0x69] none [[0x61], [0x62]]) := by
  have form : singleComma = wire 2 [0x69] none ([0x61] ++ comma :: [0x62]) := rfl
  rw [form]
  apply deserialize_wire (by decide) (by decide) (by decide)
  rw [splitOriginInfo_comma (by decide) (by decide),
    splitOriginInfo_last (by decide) (by decide) (by decide)]
  rfl

/-- The comparison applies to the bytes with a single comma. -/
theorem deserialize_serialize_singleComma :
    ∃ type issuer context text, issuer.length ≤ 65535 ∧ text.length ≤ 65535 ∧
      singleComma = wire type issuer context text ∧
      (create .blindRsa [0x69] none [[0x61], [0x62]]).serialize =
        .ok (wire type issuer context (Pieces.canonical comma text)) ∧
      (@digest singleCommaHash (create .blindRsa [0x69] none [[0x61], [0x62]])).1 =
        @Crypto.sha256 singleCommaHash (wire type issuer context (Pieces.canonical comma text)) ∧
      ((create .blindRsa [0x69] none [[0x61], [0x62]]).serialize = .ok singleComma ↔
        text = [] ∨ [] ∉ text.splitOn comma) ∧
      (text = [] ∨ [] ∉ text.splitOn comma →
        (@digest singleCommaHash (create .blindRsa [0x69] none [[0x61], [0x62]])).1 =
          @Crypto.sha256 singleCommaHash singleComma) :=
  @deserialize_serialize singleCommaHash singleComma _ singleComma_decodes

/-- These bytes decode to a challenge with the origin entries `a` and `b`. -/
def doubledComma : Bytes := [0, 2, 0, 1, 0x69, 0, 0, 4, 0x61, 0x2C, 0x2C, 0x62]

theorem doubledComma_decodes : deserialize doubledComma =
    .ok (create .blindRsa [0x69] none [[0x61], [0x62]]) := by
  have form : doubledComma = wire 2 [0x69] none ([0x61] ++ comma :: ([] ++ comma :: [0x62])) := rfl
  rw [form]
  apply deserialize_wire (by decide) (by decide) (by decide)
  rw [splitOriginInfo_comma (by decide) (by decide), splitOriginInfo_comma (by decide) (by decide),
    splitOriginInfo_last (by decide) (by decide) (by decide)]
  rfl

/-- A doubled comma does not survive the decoding. -/
theorem deserialize_serialize_differs :
    ¬ ∀ data challenge, deserialize data = .ok challenge → challenge.serialize = .ok data := by
  intro always
  have same := always doubledComma _ doubledComma_decodes
  revert same
  decide

end PrivacyPass.TokenChallenge
