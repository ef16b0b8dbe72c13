import Mathlib.Data.List.TakeWhile
import PrivacyPass.Construction.TokenChallenge
import PrivacyPass.Library.Pieces
import PrivacyPass.Proof.Wire.Primitives

/-
This file proves which bytes a challenge decodes from and which bytes it encodes to.
-/

namespace PrivacyPass.TokenChallenge

open Library

/-- The optional context goes to the wire behind its length. -/
def contextWire : Option ChallengeDigest → Bytes
  | some context => 32 :: context.val
  | none => [0]

/-- A challenge goes to the wire as four fields, and the last three carry their length. -/
def wire (type : UInt16) (issuer : Bytes) (context : Option ChallengeDigest) (text : Bytes) : Bytes :=
  u16Bytes type ++ (u16Bytes issuer.length.toUInt16 ++ (issuer ++ (contextWire context ++
    (u16Bytes text.length.toUInt16 ++ text))))

theorem wire_length (type : UInt16) (issuer : Bytes) (context : Option ChallengeDigest)
    (text : Bytes) : (wire type issuer context text).length =
      2 + (2 + issuer.length) + 1 + (if context.isSome then 32 else 0) + (2 + text.length) := by
  cases context with
  | none => simp [wire, contextWire, u16Bytes]; omega
  | some context => simp [wire, contextWire, u16Bytes, context.property]; omega

section Encode

theorem writeContext_emits (context : Option ChallengeDigest) :
    ByteWriter.Emits (writeContext context) (contextWire context) := by
  cases context with
  | none => exact (ByteWriter.writeU8_appends 0).cons ByteWriter.emits_nil
  | some context =>
      have emits := (ByteWriter.writeU8_appends 32).cons
        ((ByteWriter.writeArray_appends context).cons ByteWriter.emits_nil)
      rwa [List.append_nil] at emits

/-- The encoder accepts an issuer name of 1 to 65535 bytes and an origin text of at most 65535. -/
def Encodable (challenge : TokenChallenge) : Prop :=
  challenge.issuerName ≠ [] ∧ challenge.issuerName.length ≤ 65535 ∧
    challenge.originInfoString.length ≤ 65535

/-- An encodable challenge goes to the wire as its fields. -/
theorem serialize_ok {challenge : TokenChallenge} (encodable : challenge.Encodable) :
    challenge.serialize = .ok (wire challenge.tokenType.value challenge.issuerName
      challenge.redemptionContext challenge.originInfoString) := by
  obtain ⟨named, short, fits⟩ := encodable
  have nameCheck : ¬ (challenge.issuerName.isEmpty || challenge.issuerName.length > 0xFFFF) = true := by
    simp [named, short]
  have textCheck : ¬ challenge.originInfoString.length > 0xFFFF := by omega
  rw [serialize, if_neg nameCheck]
  simp only [if_neg textCheck]
  congr 1
  apply ByteWriter.Emits.build
  have text : ByteWriter.Emits (if challenge.originInfoString.isEmpty then []
      else [ByteWriter.writeBytes challenge.originInfoString]) challenge.originInfoString := by
    split
    · next empty => rw [List.isEmpty_iff.mp empty]; exact ByteWriter.emits_nil
    · have emits := (ByteWriter.writeBytes_appends challenge.originInfoString).cons
        ByteWriter.emits_nil
      rwa [List.append_nil] at emits
  have calls := (ByteWriter.writeU16_appends challenge.tokenType.value).cons
    ((ByteWriter.writeU16_appends challenge.issuerName.length.toUInt16).cons
      ((ByteWriter.writeBytes_appends challenge.issuerName).cons
        ((writeContext_emits challenge.redemptionContext).append
          ((ByteWriter.writeU16_appends challenge.originInfoString.length.toUInt16).cons text))))
  simpa [wire] using calls

/-- The encoder accepts nothing but encodable challenges. -/
theorem serialize_encodable {challenge : TokenChallenge} {bytes : Bytes}
    (success : challenge.serialize = .ok bytes) : challenge.Encodable := by
  unfold serialize at success
  split at success
  · cases success
  · next nameCheck =>
      dsimp only at success
      split at success
      · cases success
      · next textCheck =>
          simp only [Bool.or_eq_true, List.isEmpty_iff, decide_eq_true_eq, not_or] at nameCheck
          exact ⟨nameCheck.1, by omega, by omega⟩

/-- The encoder writes exactly the encodable challenges. -/
theorem serialize_eq_ok {challenge : TokenChallenge} {bytes : Bytes} :
    challenge.serialize = .ok bytes ↔ challenge.Encodable ∧ bytes = wire challenge.tokenType.value
      challenge.issuerName challenge.redemptionContext challenge.originInfoString := by
  constructor
  · intro success
    have encodable := serialize_encodable success
    exact ⟨encodable, Except.ok.inj (success.symm.trans (serialize_ok encodable))⟩
  · rintro ⟨encodable, rfl⟩
    exact serialize_ok encodable

/-- The reserved size is the size of the encoding. -/
theorem serializedSize_exact {challenge : TokenChallenge} {bytes : Bytes}
    (success : challenge.serialize = .ok bytes) : bytes.length = challenge.serializedSize := by
  obtain ⟨-, rfl⟩ := serialize_eq_ok.mp success
  rw [wire_length, serializedSize, originInfoString, ← Pieces.join, Pieces.join_length]

end Encode

section Split

theorem pushEntry_eq (entries : List Bytes) (entry : Bytes) :
    pushEntry entries entry = entries ++ if entry.isEmpty then [] else [entry] := by
  unfold pushEntry
  split <;> simp

/-- A text without a comma is the last entry. -/
theorem splitOriginInfo_last {entries : List Bytes} {text : Bytes} (absent : comma ∉ text)
    (nonempty : text ≠ []) (room : entries.length < maxOriginEntries) :
    splitOriginInfo entries text = .ok (pushEntry entries text) := by
  have kept : ∀ byte ∈ text, (byte != comma) = true := by
    intro byte member
    exact bne_iff_ne.mpr fun equal => absent (equal ▸ member)
  have whole : text.takeWhile (· != comma) = text := List.takeWhile_eq_self_iff.mpr kept
  have nothing : text.dropWhile (· != comma) = [] := List.dropWhile_eq_nil_iff.mpr kept
  rw [splitOriginInfo, if_neg nonempty, if_neg (Nat.not_le.mpr room)]
  split
  · rw [whole]
  · next cut => rw [nothing] at cut; cases cut

/-- The first comma ends the first entry. -/
theorem splitOriginInfo_comma {entries : List Bytes} {part rest : Bytes} (absent : comma ∉ part)
    (room : entries.length < maxOriginEntries) :
    splitOriginInfo entries (part ++ comma :: rest) =
      splitOriginInfo (pushEntry entries part) rest := by
  have kept : ∀ byte ∈ part, (byte != comma) = true := by
    intro byte member
    exact bne_iff_ne.mpr fun equal => absent (equal ▸ member)
  have front : (part ++ comma :: rest).takeWhile (· != comma) = part := by
    rw [List.takeWhile_append_of_pos kept]
    simp
  have back : (part ++ comma :: rest).dropWhile (· != comma) = comma :: rest := by
    rw [List.dropWhile_append_of_pos kept]
    simp
  rw [splitOriginInfo, if_neg (by simp), if_neg (Nat.not_le.mpr room)]
  split
  · next cut => rw [back] at cut; cases cut
  · next separator tail cut =>
      rw [back] at cut
      obtain ⟨rfl, rfl⟩ := List.cons.inj cut
      rw [front]

/-- A full list stops the loop. -/
theorem splitOriginInfo_full {entries : List Bytes} {text : Bytes} (nonempty : text ≠ [])
    (full : maxOriginEntries ≤ entries.length) :
    splitOriginInfo entries text =
      .error ⟨.malformedData, "Too many origin_info entries (max 100)"⟩ := by
  rw [splitOriginInfo, if_neg nonempty, if_pos full]

/-- A text is empty, is one last entry, or has a first comma. -/
theorem text_cases (text : Bytes) : text = [] ∨ (text ≠ [] ∧ comma ∉ text) ∨
    ∃ part rest, comma ∉ part ∧ text = part ++ comma :: rest := by
  by_cases member : comma ∈ text
  · obtain ⟨part, rest, equal, absent⟩ := List.eq_append_cons_of_mem member
    exact .inr (.inr ⟨part, rest, absent, equal⟩)
  · by_cases empty : text = []
    · exact .inl empty
    · exact .inr (.inl ⟨empty, member⟩)

/-- The loop keeps exactly the nonempty pieces of the text, in order. -/
theorem splitOriginInfo_pieces {entries result : List Bytes} {text : Bytes}
    (success : splitOriginInfo entries text = .ok result) :
    result = entries ++ Pieces.pieces comma text := by
  induction length : text.length using Nat.strong_induction_on generalizing entries text with
  | h size ih =>
      rcases text_cases text with rfl | ⟨nonempty, absent⟩ | ⟨part, rest, absent, rfl⟩
      · rw [splitOriginInfo, if_pos rfl] at success
        simpa [eq_comm] using success
      · by_cases room : entries.length < maxOriginEntries
        · rw [splitOriginInfo_last absent nonempty room, pushEntry_eq] at success
          rw [Pieces.pieces_of_not_mem absent]
          exact (Except.ok.inj success).symm
        · rw [splitOriginInfo_full nonempty (Nat.not_lt.mp room)] at success
          cases success
      · by_cases room : entries.length < maxOriginEntries
        · rw [splitOriginInfo_comma absent room] at success
          have shorter : rest.length < size := by
            rw [← length, List.length_append, List.length_cons]
            omega
          rw [ih rest.length shorter success rfl, pushEntry_eq, Pieces.pieces_append_cons absent,
            List.append_assoc]
        · rw [splitOriginInfo_full (by simp) (Nat.not_lt.mp room)] at success
          cases success

/-- The loop accepts each text whose entries are nonempty and at most 100. -/
theorem splitOriginInfo_join {entries parts : List Bytes}
    (free : ∀ part ∈ parts, comma ∉ part) (nonempty : ∀ part ∈ parts, part ≠ [])
    (room : entries.length + parts.length ≤ maxOriginEntries) :
    splitOriginInfo entries (Pieces.join comma parts) = .ok (entries ++ parts) := by
  induction parts generalizing entries with
  | nil =>
      rw [Pieces.join, List.intercalate_nil, splitOriginInfo, if_pos rfl, List.append_nil]
  | cons head tail ih =>
      have headFree := free head List.mem_cons_self
      have headSome := nonempty head List.mem_cons_self
      have pushed : pushEntry entries head = entries ++ [head] := by
        rw [pushEntry, if_neg (by simpa using headSome)]
      have some : entries.length < maxOriginEntries := by
        rw [List.length_cons] at room
        omega
      cases tail with
      | nil =>
          rw [Pieces.join, List.intercalate_singleton, splitOriginInfo_last headFree headSome some,
            pushed]
      | cons second tail =>
          rw [Pieces.join, List.intercalate_cons_cons, List.append_assoc, List.singleton_append,
            splitOriginInfo_comma headFree some, pushed, ← Pieces.join,
            ih (fun part member => free part (List.mem_cons_of_mem _ member))
              (fun part member => nonempty part (List.mem_cons_of_mem _ member))
              (by simp only [List.length_append, List.length_cons, List.length_nil] at room ⊢; omega),
            List.append_assoc, List.singleton_append]

end Split

section Decode

/-- The decoder reads an optional context behind its length. -/
theorem contextDecoder_decodes (context : Option ChallengeDigest) :
    Decodes contextDecoder (contextWire context) context := by
  intro before rest
  unfold contextDecoder
  cases context with
  | none =>
      rw [contextWire, ((ByteReader.readU8_reads 0).decodes _).bind_apply,
        Decoder.reject_bind (by decide), if_neg (by decide)]
      rfl
  | some context =>
      rw [contextWire, ← List.singleton_append, List.append_assoc,
        ((ByteReader.readU8_reads 32).decodes _).bind_apply, Decoder.reject_bind (by decide),
        if_pos rfl, ((ByteReader.readArray_reads context).decodes _).bind_apply]
      simp

theorem contextDecoder_only :
    DecodesOnly contextDecoder fun word context => word = contextWire context := by
  intro cursor context final success
  obtain ⟨length, moved, _, rfl, rest, success⟩ := ByteReader.readU8_only.bind_eq_ok success
  obtain ⟨known, success⟩ := Decoder.reject_bind_eq_ok success
  split at success
  · next full =>
      obtain ⟨array, last, _, rfl, arrayRest, success⟩ :=
        (ByteReader.readArray_only 32).bind_eq_ok success
      obtain ⟨rfl, rfl⟩ := Decoder.pure_eq_ok.mp success
      exact ⟨_, rfl, by rw [rest, arrayRest, full]; rfl⟩
  · next other =>
      obtain ⟨rfl, rfl⟩ := Decoder.pure_eq_ok.mp success
      have zero : length = 0 := by
        by_contra different
        exact known ⟨different, other⟩
      exact ⟨_, rfl, by rw [rest, zero]; rfl⟩

/-- The decoder reads the entries behind the length of their text. -/
theorem originInfoDecoder_decodes {text : Bytes} {origins : List Bytes}
    (fits : text.length ≤ 65535) (entries : splitOriginInfo [] text = .ok origins) :
    Decodes originInfoDecoder (u16Bytes text.length.toUInt16 ++ text) origins := by
  apply ((ByteReader.readU16_reads _).decodes _).bind
  by_cases empty : text = []
  · subst empty
    rw [splitOriginInfo, if_pos rfl] at entries
    cases entries
    exact decodes_pure []
  · have positive : text.length.toUInt16 > 0 := by
      have some := List.length_pos_iff.mpr empty
      rw [gt_iff_lt, UInt16.lt_iff_toNat_lt, length_toUInt16 fits]
      exact some
    have textRead : Reads (ByteReader.readBytes text.length.toUInt16.toNat) text text := by
      rw [length_toUInt16 fits]
      exact ByteReader.readBytes_reads text
    intro before rest
    rw [if_pos positive, (textRead.decodes _).bind_apply, Decoder.lift_apply, entries]

theorem originInfoDecoder_only : DecodesOnly originInfoDecoder fun word origins =>
    ∃ text, word = u16Bytes text.length.toUInt16 ++ text ∧ text.length ≤ 65535 ∧
      splitOriginInfo [] text = .ok origins := by
  intro cursor origins final success
  obtain ⟨length, moved, _, rfl, rest, success⟩ := ByteReader.readU16_only.bind_eq_ok success
  split at success
  · obtain ⟨text, last, _, ⟨rfl, size⟩, textRest, success⟩ :=
      (ByteReader.readBytes_only length.toNat).bind_eq_ok success
    obtain ⟨entries, rfl⟩ := Decoder.lift_eq_ok.mp success
    have bound := length.toNat_lt
    exact ⟨_, ⟨_, rfl, by omega, entries⟩,
      by rw [rest, textRest, toUInt16_length size, List.append_assoc]⟩
  · next none =>
      obtain ⟨rfl, rfl⟩ := Decoder.pure_eq_ok.mp success
      have zero : length = 0 := by
        apply UInt16.toNat_inj.mp
        rw [gt_iff_lt, UInt16.lt_iff_toNat_lt] at none
        change length.toNat = 0
        change ¬ 0 < length.toNat at none
        omega
      exact ⟨_, ⟨[], rfl, by simp, by rw [splitOriginInfo, if_pos rfl]⟩, by rw [rest, zero]; rfl⟩

/-- The decoder reads the fields in front of the origin text and leaves the rest to the text. -/
theorem deserialize_wire_origins {issuer : Bytes} (type : UInt16) (context : Option ChallengeDigest)
    (text : Bytes) (named : issuer ≠ []) (short : issuer.length ≤ 65535) : ∃ before,
      deserialize (wire type issuer context text) = ((originInfoDecoder >>= fun origins => do
        Decoder.finish ⟨.malformedData, "Trailing TokenChallenge data"⟩
        pure (create ⟨type⟩ issuer context origins))
          ⟨before, u16Bytes text.length.toUInt16 ++ text⟩).1 := by
  have issuerRead : Reads (ByteReader.readBytes issuer.length.toUInt16.toNat) issuer issuer := by
    rw [length_toUInt16 short]
    exact ByteReader.readBytes_reads issuer
  have issuerLength : issuer.length.toUInt16 ≠ 0 := by
    intro zero
    have empty := length_toUInt16 short
    rw [zero] at empty
    exact named (List.length_eq_zero_iff.mp empty.symm)
  refine ⟨[] ++ u16Bytes type ++ u16Bytes issuer.length.toUInt16 ++ issuer ++ contextWire context, ?_⟩
  unfold deserialize Decoder.run wire Cursor.start decoder
  rw [((ByteReader.readU16_reads type).decodes _).bind_apply,
    ((ByteReader.readU16_reads _).decodes _).bind_apply, (issuerRead.decodes _).bind_apply,
    Decoder.reject_bind issuerLength, (contextDecoder_decodes context).bind_apply]

/-- The decoder accepts each challenge in the wire format whose entries it can split. -/
theorem deserialize_wire {type : UInt16} {issuer text : Bytes} {context : Option ChallengeDigest}
    {origins : List Bytes} (named : issuer ≠ []) (short : issuer.length ≤ 65535)
    (fits : text.length ≤ 65535) (entries : splitOriginInfo [] text = .ok origins) :
    deserialize (wire type issuer context text) = .ok (create ⟨type⟩ issuer context origins) := by
  obtain ⟨before, reads⟩ := deserialize_wire_origins type context text named short
  rw [reads, ← List.append_nil (_ ++ text), (originInfoDecoder_decodes fits entries).bind_apply,
    Decoder.finish_bind]
  rfl

/-- The decoder accepts a challenge in the wire format only if it can split the entries. -/
theorem splitOriginInfo_of_wire {type : UInt16} {issuer text : Bytes}
    {context : Option ChallengeDigest} {decoded : TokenChallenge} (named : issuer ≠ [])
    (short : issuer.length ≤ 65535)
    (success : deserialize (wire type issuer context text) = .ok decoded) :
    ∃ origins, splitOriginInfo [] text = .ok origins := by
  obtain ⟨before, reads⟩ := deserialize_wire_origins type context text named short
  rw [reads] at success
  obtain ⟨origins, moved, _, ⟨parsed, rfl, -, entries⟩, rest, success⟩ :=
    originInfoDecoder_only.bind_eq_ok (Prod.ext success rfl : _ = (Except.ok decoded, _))
  obtain ⟨done, -⟩ := Decoder.finish_bind_eq_ok success
  rw [done, List.append_nil] at rest
  obtain ⟨-, rfl⟩ := List.append_inj rest rfl
  exact ⟨origins, entries⟩

/-- The decoder accepts nothing but the wire format. -/
theorem deserialize_format {data : Bytes} {challenge : TokenChallenge}
    (success : deserialize data = .ok challenge) :
    ∃ type issuer context text origins, issuer ≠ [] ∧ issuer.length ≤ 65535 ∧
      text.length ≤ 65535 ∧ splitOriginInfo [] text = .ok origins ∧
      data = wire type issuer context text ∧ challenge = create ⟨type⟩ issuer context origins := by
  obtain ⟨last, success⟩ := Decoder.run_eq_ok.mp success
  obtain ⟨type, afterType, _, rfl, typeRest, success⟩ := ByteReader.readU16_only.bind_eq_ok success
  obtain ⟨length, afterLength, _, rfl, lengthRest, success⟩ :=
    ByteReader.readU16_only.bind_eq_ok success
  obtain ⟨issuer, afterIssuer, _, ⟨rfl, size⟩, issuerRest, success⟩ :=
    (ByteReader.readBytes_only length.toNat).bind_eq_ok success
  obtain ⟨nonzero, success⟩ := Decoder.reject_bind_eq_ok success
  obtain ⟨context, afterContext, _, rfl, contextRest, success⟩ :=
    contextDecoder_only.bind_eq_ok success
  obtain ⟨origins, afterOrigins, _, ⟨text, rfl, fits, entries⟩, textRest, success⟩ :=
    originInfoDecoder_only.bind_eq_ok success
  obtain ⟨done, success⟩ := Decoder.finish_bind_eq_ok success
  obtain ⟨rfl, rfl⟩ := Decoder.pure_eq_ok.mp success
  have bound := length.toNat_lt
  refine ⟨type, _, context, text, origins, ?_, by omega, fits, entries, ?_, rfl⟩
  · rintro rfl
    exact nonzero (UInt16.toNat_inj.mp size.symm)
  · change data = _ at typeRest
    rw [typeRest, lengthRest, issuerRest, contextRest, textRest, done, List.append_nil, wire,
      toUInt16_length size]

end Decode
end PrivacyPass.TokenChallenge
