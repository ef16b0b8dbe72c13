import PrivacyPass.Construction.TokenAuthenticator
import PrivacyPass.Proof.Moq.Authorization
import PrivacyPass.Proof.Origin.Verify
import PrivacyPass.Proof.Wire.Base64Url
import PrivacyPass.Proof.Wire.Challenge

/-
This file proves that an authorization info survives the path through a challenge.
-/

namespace PrivacyPass.Moq

open Library

/-- The counts of a scope fit into their fields. -/
def AuthScope.FewParts (scope : AuthScope) : Prop :=
  scope.actions.length ≤ 255 ∧
    ∀ rule, scope.namespaceMatch = .rule rule → rule.pattern.length ≤ 255

/-- A short scope has short parts. -/
theorem AuthScope.encodable_of_size {scope : AuthScope} (few : scope.FewParts)
    (short : scope.encodedSize ≤ 65535) : scope.Encodable := by
  refine ⟨few.1, fun rule equal => ⟨few.2 rule equal, fun elem member => ?_⟩, fun rule equal => ?_⟩
  · have part := List.single_le_sum (by simp) _
      (List.mem_map_of_mem (f := fun elem : Bytes => 2 + elem.length) member)
    simp only [encodedSize, equal, matchSize] at short
    omega
  · simp only [encodedSize, equal, matchSize] at short
    omega

namespace AuthorizationInfo

/-- The counts of an info fit into their fields. -/
def FewParts (info : AuthorizationInfo) : Prop :=
  info.scopes.length ≤ 255 ∧ ∀ scope ∈ info.scopes, scope.FewParts

theorem wire_length (info : AuthorizationInfo) :
    info.wire.length = 1 + (info.scopes.map fun scope => 2 + scope.encodedSize).sum := by
  rw [wire, List.length_cons, List.length_flatMap, Nat.add_comm]
  simp only [sizedWire_length, AuthScope.wire_length]

/-- A short info has short scopes. -/
theorem encodable_of_size {info : AuthorizationInfo} (few : info.FewParts)
    (short : info.wire.length ≤ 65535) : info.Encodable := by
  refine ⟨few.1, fun scope member => ?_⟩
  have part := List.single_le_sum (by simp) _
    (List.mem_map_of_mem (f := fun scope : AuthScope => 2 + scope.encodedSize) member)
  rw [wire_length] at short
  have size : scope.encodedSize ≤ 65535 := by omega
  exact ⟨AuthScope.encodable_of_size (few.2 scope member) size, size⟩

/-- The text of an info is the encoding of its wire format. -/
theorem encodeForOriginInfo_eq (info : AuthorizationInfo) :
    info.encodeForOriginInfo = .ok (Base64Url.encode info.wire) := by
  rw [encodeForOriginInfo, serialize_eq]
  rfl

/-- An encodable info is decoded from its text. -/
theorem decodeFromOriginInfo_encode {info : AuthorizationInfo} (encodable : info.Encodable) :
    decodeFromOriginInfo (Base64Url.encode info.wire) = .ok info := by
  rw [decodeFromOriginInfo, Base64Url.decode_encode]
  exact (decoder_decodes encodable).run

/-- The text of an info is a nonempty entry without a comma, and it is no shorter than the info. -/
theorem encode_entry (info : AuthorizationInfo) :
    Base64Url.encode info.wire ≠ [] ∧ TokenChallenge.comma ∉ Base64Url.encode info.wire ∧
      info.wire.length ≤ (Base64Url.encode info.wire).length := by
  refine ⟨fun empty => ?_, fun member => ?_, Base64Url.length_le_encode _⟩
  · rw [Base64Url.encode_eq_nil] at empty
    exact List.cons_ne_nil _ _ empty
  · exact Base64Url.notMem_encodeTable.2.1 (Base64Url.encode_alphabet _ _ member)

/-- A challenge that carries an info in its first entry is decoded to the same info. -/
theorem decodeFromOriginInfo_createChallenge [CryptoBackend] (authenticator : TokenAuthenticator)
    (info : AuthorizationInfo) (type : TokenType) (context : Option ChallengeDigest)
    (few : info.FewParts)
    (named : authenticator.config.issuerName ≠ [] ∧ authenticator.config.issuerName.length ≤ 65535)
    (origins : authenticator.config.originNames.length ≤ 99 ∧
      ∀ name ∈ authenticator.config.originNames, name ≠ [] ∧ TokenChallenge.comma ∉ name)
    (short : ∀ text, info.encodeForOriginInfo = .ok text →
      ([TokenChallenge.comma].intercalate (text :: authenticator.config.originNames)).length ≤
        65535) :
    ∃ text challenge bytes decoded first rest again,
      info.encodeForOriginInfo = .ok text ∧
      authenticator.createChallenge type context [text] = .ok challenge ∧
      challenge.serialize = .ok bytes ∧
      TokenChallenge.deserialize bytes = .ok decoded ∧
      decoded.originInfo = first :: rest ∧
      decodeFromOriginInfo first = .ok again ∧
      again = info ∧
      ∀ action ns track, again.authorizes action ns track = info.authorizes action ns track := by
  obtain ⟨nonempty, free, long⟩ := info.encode_entry
  have joined := short _ info.encodeForOriginInfo_eq
  let entries := Base64Url.encode info.wire :: authenticator.config.originNames
  let challenge := TokenChallenge.create type authenticator.config.issuerName context entries
  have serialized := TokenChallenge.serialize_ok
    (show challenge.Encodable from ⟨named.1, named.2, joined⟩)
  have split : TokenChallenge.splitOriginInfo [] challenge.originInfoString = .ok entries :=
    TokenChallenge.splitOriginInfo_join
      (List.forall_mem_cons.mpr ⟨free, fun name member => (origins.2 name member).2⟩)
      (List.forall_mem_cons.mpr ⟨nonempty, fun name member => (origins.2 name member).1⟩)
      (by
        have few := origins.1
        change 0 + (authenticator.config.originNames.length + 1) ≤ 100
        omega)
  have decoded := @TokenChallenge.deserialize_wire type.value _ _ context _
    named.1 named.2 joined split
  have size : (Base64Url.encode info.wire).length ≤ 65535 := by
    rw [← Pieces.join, Pieces.join_length] at joined
    simp only [List.map_cons, List.sum_cons] at joined
    omega
  have encodable := encodable_of_size few (long.trans size)
  exact ⟨_, challenge, _, _, _, _, info, info.encodeForOriginInfo_eq, rfl, serialized, decoded, rfl,
    decodeFromOriginInfo_encode encodable, rfl, fun _ _ _ => rfl⟩

section Instances

/-- The info lets its holder subscribe to every track. -/
def subscriberInfo : AuthorizationInfo := ⟨[⟨[.subscribe], .wildcard, .wildcard⟩]⟩

abbrev guardingAuthenticator : @TokenAuthenticator zeroBackend :=
  @TokenAuthenticator.create zeroBackend { issuerName := [0x69], originNames := [[0x6F]] }

/-- The info survives a challenge with one more origin name. -/
theorem decodeFromOriginInfo_createChallenge_subscriber :
    ∃ text challenge bytes decoded first rest again,
      subscriberInfo.encodeForOriginInfo = .ok text ∧
      @TokenAuthenticator.createChallenge zeroBackend guardingAuthenticator .blindRsa none [text] =
        .ok challenge ∧
      challenge.serialize = .ok bytes ∧
      TokenChallenge.deserialize bytes = .ok decoded ∧
      decoded.originInfo = first :: rest ∧
      decodeFromOriginInfo first = .ok again ∧
      again = subscriberInfo ∧
      ∀ action ns track,
        again.authorizes action ns track = subscriberInfo.authorizes action ns track := by
  have few : subscriberInfo.FewParts := by
    simp [FewParts, AuthScope.FewParts, subscriberInfo]
  refine @decodeFromOriginInfo_createChallenge zeroBackend guardingAuthenticator subscriberInfo
    .blindRsa none few (by decide) (by decide) fun text encoded => ?_
  rw [encodeForOriginInfo_eq] at encoded
  cases encoded
  decide +kernel

end Instances

end AuthorizationInfo
end PrivacyPass.Moq
