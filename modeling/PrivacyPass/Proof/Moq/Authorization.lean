import PrivacyPass.Proof.Moq.Scopes

/-
This file proves which authorization infos survive their encoding.
-/

namespace PrivacyPass.Moq.AuthorizationInfo

open Library

/-- The scopes go to the wire behind their number, and each of them behind its size. -/
def wire (info : AuthorizationInfo) : Bytes :=
  info.scopes.length.toUInt8 :: info.scopes.flatMap fun scope => sizedWire scope.wire

/-- Every info is written as its wire format, also where a field was narrowed. -/
theorem serialize_eq (info : AuthorizationInfo) : info.serialize = .ok info.wire := by
  have scopes : info.scopes.mapM AuthScope.serialize = .ok (info.scopes.map AuthScope.wire) := by
    induction info.scopes with
    | nil => rfl
    | cons head tail ih =>
        rw [List.mapM_cons, AuthScope.serialize_eq, ih]
        rfl
  have each (bytes : Bytes) : ByteWriter.Emits (writeScope bytes) (sizedWire bytes) := by
    have emits := (ByteWriter.writeU16_appends bytes.length.toUInt16).cons
      ((ByteWriter.writeBytes_appends bytes).cons ByteWriter.emits_nil)
    rwa [List.append_nil] at emits
  have calls (words : List Bytes) :
      ByteWriter.Emits (words.flatMap writeScope) (words.flatMap sizedWire) := by
    induction words with
    | nil => exact ByteWriter.emits_nil
    | cons head tail ih => exact (each head).append ih
  have whole := ((ByteWriter.writeU8_appends info.scopes.length.toUInt8).cons
    (calls (info.scopes.map AuthScope.wire))).build
  rw [serialize, scopes]
  change Except.ok (ByteWriter.build _) = _
  rw [whole, wire, List.flatMap_map]
  rfl

/-- Every count and every length of the info fits into its field. -/
def Encodable (info : AuthorizationInfo) : Prop :=
  info.scopes.length ≤ 255 ∧
    ∀ scope ∈ info.scopes, scope.Encodable ∧ scope.encodedSize ≤ 65535

theorem scopeDecoder_decodes {scope : AuthScope} (encodable : scope.Encodable)
    (fits : scope.encodedSize ≤ 65535) :
    Decodes scopeDecoder (sizedWire scope.wire) scope := by
  rw [← AuthScope.wire_length] at fits
  have read : Reads (ByteReader.readBytes scope.wire.length.toUInt16.toNat) scope.wire
      scope.wire := by
    rw [length_toUInt16 fits]
    exact ByteReader.readBytes_reads scope.wire
  apply ((ByteReader.readU16_reads _).decodes _).bind
  intro before rest
  rw [(read.decodes _).bind_apply, Decoder.lift_apply, AuthScope.deserialize,
    (AuthScope.decoder_decodes encodable).run]

/-- The frame starts with its length and the scope, and other bytes may follow the scope inside. -/
def Framed (frame : Bytes) (scope : AuthScope) : Prop :=
  ∃ slack, frame = sizedWire (scope.wire ++ slack) ∧ (scope.wire ++ slack).length ≤ 65535 ∧
    scope.Encodable

theorem Framed.fits {frame : Bytes} {scope : AuthScope} (framed : Framed frame scope) :
    scope.Encodable ∧ scope.encodedSize ≤ 65535 := by
  obtain ⟨slack, -, short, encodable⟩ := framed
  rw [List.length_append, AuthScope.wire_length] at short
  exact ⟨encodable, by omega⟩

/-- Each decoded scope was read from a frame around it. -/
theorem scopeDecoder_only : DecodesOnly scopeDecoder Framed := by
  intro cursor scope final success
  obtain ⟨length, moved, _, rfl, rest, success⟩ := ByteReader.readU16_only.bind_eq_ok success
  obtain ⟨data, last, word, ⟨equal, size⟩, dataRest, success⟩ :=
    (ByteReader.readBytes_only length.toNat).bind_eq_ok success
  obtain ⟨decoded, rfl⟩ := Decoder.lift_eq_ok.mp success
  obtain ⟨inner, decoded⟩ := Decoder.run_eq_ok.mp decoded
  obtain ⟨_, ⟨rfl, encodable⟩, frame⟩ := AuthScope.decoder_only _ _ _ decoded
  change data = _ at frame
  have bound := length.toNat_lt
  refine ⟨sizedWire data, ⟨inner.rest, by rw [← frame], by rw [← frame]; omega, encodable⟩, ?_⟩
  rw [rest, dataRest, equal, sizedWire, toUInt16_length size, List.append_assoc]

/-- An encodable info is decoded from its wire format. -/
theorem decoder_decodes {info : AuthorizationInfo} (encodable : info.Encodable) :
    Decodes decoder info.wire info := by
  obtain ⟨few, each⟩ := encodable
  rw [wire, ← List.singleton_append]
  apply ((ByteReader.readU8_reads _).decodes _).bind
  rw [length_toUInt8 few, ← List.append_nil (List.flatMap _ _)]
  exact (Decodes.times fun scope member =>
    scopeDecoder_decodes (each scope member).1 (each scope member).2).bind (decodes_pure _)

/-- Every decoded info was read from the number of its scopes and a frame around each. -/
theorem deserialize_framed {data : Bytes} {info : AuthorizationInfo}
    (success : deserialize data = .ok info) : ∃ frames rest,
      data = info.scopes.length.toUInt8 :: (frames.flatten ++ rest) ∧ info.scopes.length ≤ 255 ∧
        List.Forall₂ Framed frames info.scopes := by
  obtain ⟨last, success⟩ := Decoder.run_eq_ok.mp success
  obtain ⟨count, afterCount, _, rfl, countRest, success⟩ := ByteReader.readU8_only.bind_eq_ok success
  obtain ⟨scopes, afterScopes, _, ⟨length, frames, rfl, all⟩, framesRest, success⟩ :=
    (DecodesOnly.times scopeDecoder_only count.toNat).bind_eq_ok success
  obtain ⟨rfl, rfl⟩ := Decoder.pure_eq_ok.mp success
  have bound := count.toNat_lt
  refine ⟨frames, afterScopes.rest, ?_, by dsimp only; omega, all⟩
  change data = _ at countRest
  rw [countRest, framesRest, toUInt8_length length]
  rfl

/-- Every decoded info is encodable. -/
theorem deserialize_encodable {data : Bytes} {info : AuthorizationInfo}
    (success : deserialize data = .ok info) : info.Encodable := by
  obtain ⟨frames, rest, -, few, all⟩ := deserialize_framed success
  refine ⟨few, ?_⟩
  clear * - all
  generalize info.scopes = scopes at all ⊢
  induction all with
  | nil => simp
  | cons head tail ih => exact List.forall_mem_cons.mpr ⟨head.fits, ih⟩

/-- The encoding is decoded to the same info exactly when each count and each length fits. -/
theorem deserialize_serialize_iff (info : AuthorizationInfo) :
    (∀ bytes, info.serialize = .ok bytes → deserialize bytes = .ok info) ↔ info.Encodable := by
  rw [serialize_eq]
  constructor
  · intro survives
    exact deserialize_encodable (survives _ rfl)
  · intro encodable bytes written
    cases written
    exact (decoder_decodes encodable).run

/-- This info has as many scopes as the values of a byte, so its number of scopes is written as zero. -/
def wrappedInfo : AuthorizationInfo := ⟨List.replicate 256 ⟨[.subscribe], .wildcard, .wildcard⟩⟩

/-- The encoding of 256 scopes is decoded to no scope at all. -/
theorem serialize_wrapped_differs : ∃ bytes, wrappedInfo.serialize = .ok bytes ∧
    deserialize bytes = .ok ⟨[]⟩ ∧ wrappedInfo ≠ ⟨[]⟩ := by
  have count : wrappedInfo.scopes.length.toUInt8 = 0 := by
    rw [wrappedInfo, List.length_replicate]
    rfl
  refine ⟨wrappedInfo.wire, serialize_eq wrappedInfo, ?_, ?_⟩
  · rw [wire, count]
    generalize List.flatMap _ _ = scopes
    rfl
  · intro empty
    have length := congrArg (fun info => info.scopes.length) empty
    change (List.replicate 256 _).length = 0 at length
    rw [List.length_replicate] at length
    cases length

end PrivacyPass.Moq.AuthorizationInfo
