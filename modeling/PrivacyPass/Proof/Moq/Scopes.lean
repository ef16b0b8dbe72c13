import PrivacyPass.Construction.Moq.AuthorizationInfo
import PrivacyPass.Proof.Wire.Primitives

/-
This file proves which scopes survive the encoding of an authorization info.
-/

namespace PrivacyPass.Moq

open Library

theorem Action.ofByte_toByte (action : Action) : ofByte action.toByte = some action := by
  cases action <;> rfl

theorem Action.toByte_ofByte {value : UInt8} {action : Action} (found : ofByte value = some action) :
    action.toByte = value := by
  have listed := List.find?_some found
  rwa [decide_eq_true_eq] at listed

theorem MatchType.ofByte_toByte (type : MatchType) : ofByte type.toByte = some type := by
  cases type <;> rfl

theorem MatchType.toByte_ofByte {value : UInt8} {type : MatchType}
    (found : ofByte value = some type) : type.toByte = value := by
  have listed := List.find?_some found
  rwa [decide_eq_true_eq] at listed

theorem MatchType.toByte_ne_wildcardMarker (type : MatchType) :
    type.toByte ≠ AuthScope.wildcardMarker := by
  cases type <;> decide

namespace AuthScope

/-- A match goes to the wire as its marker or as its type before its pattern. -/
def matchWire {ρ : Type} (type : ρ → MatchType) (pattern : ρ → Bytes) : Match ρ → Bytes
  | .wildcard => [wildcardMarker]
  | .rule rule => (type rule).toByte :: pattern rule

def namespaceWire : NamespaceMatch → Bytes :=
  matchWire NamespaceMatchRule.matchType fun rule =>
    rule.pattern.length.toUInt8 :: rule.pattern.flatMap sizedWire

def trackWire : TrackNameMatch → Bytes :=
  matchWire TrackNameMatchRule.matchType fun rule => sizedWire rule.pattern

/-- The size of a match on the wire, with the size of its pattern. -/
def matchSize {ρ : Type} (pattern : ρ → Nat) : Match ρ → Nat
  | .wildcard => 1
  | .rule rule => 1 + pattern rule

/-- This is the number of bytes of a scope on the wire. -/
def encodedSize (scope : AuthScope) : Nat :=
  1 + scope.actions.length +
    matchSize (fun rule => 1 + (rule.pattern.map fun elem => 2 + elem.length).sum)
      scope.namespaceMatch +
    matchSize (fun rule => 2 + rule.pattern.length) scope.trackNameMatch

def wire (scope : AuthScope) : Bytes :=
  scope.actions.length.toUInt8 :: ((scope.actions.flatMap fun action => [action.toByte]) ++
    (namespaceWire scope.namespaceMatch ++ trackWire scope.trackNameMatch))

theorem wire_length (scope : AuthScope) : scope.wire.length = scope.encodedSize := by
  have elements (pattern : Namespace) : (pattern.flatMap sizedWire).length =
      (pattern.map fun elem => 2 + elem.length).sum := by
    rw [List.length_flatMap]
    simp only [sizedWire_length]
  rcases scope with ⟨actions, namespaceMatch, trackNameMatch⟩
  cases namespaceMatch <;> cases trackNameMatch <;>
    simp [wire, encodedSize, namespaceWire, trackWire, matchWire, matchSize, sizedWire_length,
      elements] <;> omega

/-- Every scope is written as its wire format, also where a field was narrowed. -/
theorem serialize_eq (scope : AuthScope) : scope.serialize = .ok scope.wire := by
  have element (elem : Bytes) : ByteWriter.Emits (writeElement elem) (sizedWire elem) := by
    have emits := (ByteWriter.writeU16_appends elem.length.toUInt16).cons
      ((ByteWriter.writeBytes_appends elem).cons ByteWriter.emits_nil)
    rwa [List.append_nil] at emits
  have elements (pattern : Namespace) :
      ByteWriter.Emits (pattern.flatMap writeElement) (pattern.flatMap sizedWire) := by
    induction pattern with
    | nil => exact ByteWriter.emits_nil
    | cons head tail ih => exact (element head).append ih
  have byte (value : UInt8) {calls : List Write} {word : Bytes} (rest : ByteWriter.Emits calls word) :
      ByteWriter.Emits (ByteWriter.writeU8 value :: calls) (value :: word) :=
    (ByteWriter.writeU8_appends value).cons rest
  have actions := ByteWriter.emits_map scope.actions fun action _ =>
    ByteWriter.writeU8_appends action.toByte
  have namespaceMatch : ByteWriter.Emits (writeNamespace scope.namespaceMatch)
      (namespaceWire scope.namespaceMatch) := by
    cases scope.namespaceMatch with
    | wildcard => exact byte _ ByteWriter.emits_nil
    | rule rule => exact byte _ (byte _ (elements rule.pattern))
  have trackNameMatch : ByteWriter.Emits (writeTrack scope.trackNameMatch)
      (trackWire scope.trackNameMatch) := by
    cases scope.trackNameMatch with
    | wildcard => exact byte _ ByteWriter.emits_nil
    | rule rule => exact byte _ (element rule.pattern)
  have calls := (byte scope.actions.length.toUInt8 (actions.append
    (namespaceMatch.append trackNameMatch)))
  have whole := calls.build
  rw [serialize, wire, ← whole, List.append_assoc, List.append_assoc]
  rfl

/-- Each count and each length of the scope fits into its field. -/
def Encodable (scope : AuthScope) : Prop :=
  scope.actions.length ≤ 255 ∧
    (∀ rule, scope.namespaceMatch = .rule rule →
      rule.pattern.length ≤ 255 ∧ ∀ elem ∈ rule.pattern, elem.length ≤ 65535) ∧
    ∀ rule, scope.trackNameMatch = .rule rule → rule.pattern.length ≤ 65535

theorem sizedDecoder_decodes {bytes : Bytes} (lengthMessage largeMessage dataMessage : String)
    (fits : bytes.length ≤ 65535) :
    Decodes (sizedDecoder lengthMessage largeMessage dataMessage) (sizedWire bytes) bytes := by
  have small : ¬ bytes.length.toUInt16 > maxElementSize := by
    rw [gt_iff_lt, UInt16.lt_iff_toNat_lt, length_toUInt16 fits]
    exact Nat.not_lt.mpr fits
  have read : Reads (ByteReader.readBytes bytes.length.toUInt16.toNat) bytes bytes := by
    rw [length_toUInt16 fits]
    exact ByteReader.readBytes_reads bytes
  exact ((ByteReader.readU16_reads _).decodes _).bind
    ((decodes_reject _ small).bind (read.decodes _))

theorem sizedDecoder_only (lengthMessage largeMessage dataMessage : String) :
    DecodesOnly (sizedDecoder lengthMessage largeMessage dataMessage) fun word bytes =>
      word = sizedWire bytes ∧ bytes.length ≤ 65535 := by
  intro cursor bytes final success
  obtain ⟨length, moved, _, rfl, rest, success⟩ := ByteReader.readU16_only.bind_eq_ok success
  obtain ⟨-, success⟩ := Decoder.reject_bind_eq_ok success
  obtain ⟨_, ⟨rfl, size⟩, dataRest⟩ :=
    (ByteReader.readBytes_only length.toNat).decodesOnly _ _ _ _ success
  have bound := length.toNat_lt
  exact ⟨_, ⟨rfl, by omega⟩,
    by rw [rest, dataRest, sizedWire, toUInt16_length size, List.append_assoc]⟩

theorem actionDecoder_decodes (action : Action) :
    Decodes actionDecoder [action.toByte] action := by
  rw [← List.append_nil [action.toByte]]
  apply ((ByteReader.readU8_reads _).decodes _).bind
  rw [Action.ofByte_toByte]
  exact decodes_pure action

theorem actionDecoder_only :
    DecodesOnly actionDecoder fun word action => word = [action.toByte] ∧ True := by
  intro cursor action final success
  obtain ⟨value, moved, _, rfl, rest, success⟩ := ByteReader.readU8_only.bind_eq_ok success
  cases found : Action.ofByte value with
  | none =>
      rw [found] at success
      cases success
  | some known =>
      rw [found] at success
      obtain ⟨rfl, rfl⟩ := Decoder.pure_eq_ok.mp success
      exact ⟨_, ⟨rfl, trivial⟩, by rw [rest, Action.toByte_ofByte found]⟩

section Matches

variable {ρ : Type} {typeMessage invalidMessage : String} {rules : MatchType → ByteDecoder ρ}
  {type : ρ → MatchType} {pattern : ρ → Bytes}

/-- A match is decoded when its rule is. -/
theorem matchDecoder_decodes {decoded : Match ρ}
    (each : ∀ rule, decoded = .rule rule → Decodes (rules (type rule)) (pattern rule) rule) :
    Decodes (matchDecoder typeMessage invalidMessage rules) (matchWire type pattern decoded)
      decoded := by
  cases decoded with
  | wildcard =>
      rw [matchWire, ← List.append_nil [wildcardMarker]]
      apply ((ByteReader.readU8_reads _).decodes _).bind
      rw [if_pos rfl]
      exact decodes_pure _
  | rule rule =>
      rw [matchWire, ← List.singleton_append]
      apply ((ByteReader.readU8_reads _).decodes _).bind
      rw [if_neg (MatchType.toByte_ne_wildcardMarker _), MatchType.ofByte_toByte,
        ← List.append_nil (pattern rule)]
      exact (each rule rfl).bind (decodes_pure _)

/-- A decoded match is the marker or a rule that was decoded. -/
theorem matchDecoder_only {fits : ρ → Prop}
    (each : ∀ matchType, DecodesOnly (rules matchType) fun word rule =>
      word = pattern rule ∧ type rule = matchType ∧ fits rule) :
    DecodesOnly (matchDecoder typeMessage invalidMessage rules) fun word decoded =>
      word = matchWire type pattern decoded ∧ ∀ rule, decoded = .rule rule → fits rule := by
  intro cursor decoded final success
  obtain ⟨value, moved, _, rfl, rest, success⟩ := ByteReader.readU8_only.bind_eq_ok success
  split at success
  · next marker =>
      obtain ⟨rfl, rfl⟩ := Decoder.pure_eq_ok.mp success
      exact ⟨_, ⟨rfl, by simp⟩, by rw [rest, marker]; rfl⟩
  · cases found : MatchType.ofByte value with
    | none =>
        rw [found] at success
        cases success
    | some matchType =>
        rw [found] at success
        obtain ⟨rule, last, word, ⟨rfl, typed, bound⟩, ruleRest, success⟩ :=
          (each matchType).bind_eq_ok success
        obtain ⟨rfl, rfl⟩ := Decoder.pure_eq_ok.mp success
        refine ⟨_, ⟨rfl, ?_⟩, ?_⟩
        · rintro other equal
          cases equal
          exact bound
        · rw [rest, ruleRest, matchWire, typed, MatchType.toByte_ofByte found]
          rfl

end Matches

theorem namespaceDecoder_decodes {decoded : NamespaceMatch}
    (fits : ∀ rule, decoded = .rule rule →
      rule.pattern.length ≤ 255 ∧ ∀ elem ∈ rule.pattern, elem.length ≤ 65535) :
    Decodes namespaceDecoder (namespaceWire decoded) decoded := by
  apply matchDecoder_decodes
  intro rule equal
  obtain ⟨few, short⟩ := fits rule equal
  rw [← List.singleton_append]
  apply ((ByteReader.readU8_reads _).decodes _).bind
  rw [length_toUInt8 few, ← List.append_nil (rule.pattern.flatMap sizedWire)]
  exact (Decodes.times fun elem member => sizedDecoder_decodes _ _ _ (short elem member)).bind
    (decodes_pure _)

theorem namespaceDecoder_only :
    DecodesOnly namespaceDecoder fun word decoded => word = namespaceWire decoded ∧
      ∀ rule, decoded = .rule rule →
        rule.pattern.length ≤ 255 ∧ ∀ elem ∈ rule.pattern, elem.length ≤ 65535 := by
  apply matchDecoder_only
  intro matchType cursor rule final success
  obtain ⟨count, moved, _, rfl, rest, success⟩ := ByteReader.readU8_only.bind_eq_ok success
  obtain ⟨pattern, last, _, ⟨length, rfl, short⟩, elementsRest, success⟩ :=
    (DecodesOnly.times_encode (sizedDecoder_only _ _ _) count.toNat).bind_eq_ok success
  obtain ⟨rfl, rfl⟩ := Decoder.pure_eq_ok.mp success
  have bound := count.toNat_lt
  refine ⟨_, ⟨rfl, rfl, by dsimp only; omega, short⟩, ?_⟩
  rw [rest, elementsRest, toUInt8_length length]
  rfl

theorem trackDecoder_decodes {decoded : TrackNameMatch}
    (fits : ∀ rule, decoded = .rule rule → rule.pattern.length ≤ 65535) :
    Decodes trackDecoder (trackWire decoded) decoded := by
  apply matchDecoder_decodes
  intro rule equal
  rw [← List.append_nil (sizedWire rule.pattern)]
  exact (sizedDecoder_decodes _ _ _ (fits rule equal)).bind (decodes_pure _)

theorem trackDecoder_only :
    DecodesOnly trackDecoder fun word decoded => word = trackWire decoded ∧
      ∀ rule, decoded = .rule rule → rule.pattern.length ≤ 65535 := by
  apply matchDecoder_only
  intro matchType cursor rule final success
  obtain ⟨pattern, last, _, ⟨rfl, short⟩, rest, success⟩ :=
    (sizedDecoder_only _ _ _).bind_eq_ok success
  obtain ⟨rfl, rfl⟩ := Decoder.pure_eq_ok.mp success
  exact ⟨_, ⟨rfl, rfl, short⟩, rest⟩

/-- An encodable scope is decoded from its wire format. -/
theorem decoder_decodes {scope : AuthScope} (encodable : scope.Encodable) :
    Decodes decoder scope.wire scope := by
  obtain ⟨few, namespaceFits, trackFits⟩ := encodable
  rw [wire, ← List.singleton_append]
  apply ((ByteReader.readU8_reads _).decodes _).bind
  rw [length_toUInt8 few]
  apply (Decodes.times fun action _ => actionDecoder_decodes action).bind
  apply (namespaceDecoder_decodes namespaceFits).bind
  rw [← List.append_nil (trackWire scope.trackNameMatch)]
  exact (trackDecoder_decodes trackFits).bind (decodes_pure _)

/-- Every decoded scope is encodable and was read from its wire format. -/
theorem decoder_only :
    DecodesOnly decoder fun word scope => word = scope.wire ∧ scope.Encodable := by
  intro cursor scope final success
  obtain ⟨count, afterCount, _, rfl, countRest, success⟩ :=
    ByteReader.readU8_only.bind_eq_ok success
  obtain ⟨actions, afterActions, _, ⟨length, rfl, -⟩, actionsRest, success⟩ :=
    (DecodesOnly.times_encode actionDecoder_only count.toNat).bind_eq_ok success
  obtain ⟨namespaceMatch, afterNamespace, _, ⟨rfl, namespaceFits⟩, namespaceRest, success⟩ :=
    namespaceDecoder_only.bind_eq_ok success
  obtain ⟨trackNameMatch, afterTrack, _, ⟨rfl, trackFits⟩, trackRest, success⟩ :=
    trackDecoder_only.bind_eq_ok success
  obtain ⟨rfl, rfl⟩ := Decoder.pure_eq_ok.mp success
  have bound := count.toNat_lt
  refine ⟨_, ⟨rfl, by dsimp only; omega, namespaceFits, trackFits⟩, ?_⟩
  rw [countRest, actionsRest, namespaceRest, trackRest, wire, toUInt8_length length]
  simp

end AuthScope
end PrivacyPass.Moq
