import PrivacyPass.Proof.ChallengeBinding
import PrivacyPass.Proof.Moq.Relay
import PrivacyPass.Proof.Wire.Base64Language

/-
This file proves that a token grants no more than the challenge that it was issued for.
-/

namespace PrivacyPass.Moq

open Library Crypto
open TokenChallenge (comma)

/-- A text that decodes holds no comma. -/
theorem comma_notMem_of_decode {text bytes : Bytes} (decoded : Base64Url.decode text = .ok bytes) :
    comma ∉ text := by
  unfold Base64Url.decode at decoded
  dsimp only at decoded
  split at decoded
  · cases decoded
  · intro member
    obtain ⟨count, spelled⟩ := Base64Url.append_stripped text
    rw [spelled, List.mem_append] at member
    rcases member with inside | behind
    · exact Base64Url.notMem_encodeTable.2.1 (Base64Url.decodeLoop_ok decoded _ inside)
    · cases List.eq_of_mem_replicate behind

/-- The text of an origin info starts with its first entry. -/
theorem first_of_join {first other : Bytes} {rest more : List Bytes} (firstFree : comma ∉ first)
    (otherFree : comma ∉ other)
    (same : [comma].intercalate (first :: rest) = [comma].intercalate (other :: more)) :
    first = other := by
  have front {entry : Bytes} (free : comma ∉ entry) (entries : List Bytes) :
      ([comma].intercalate (entry :: entries)).takeWhile (· != comma) = entry := by
    have kept : ∀ char ∈ entry, (char != comma) = true := by
      intro char member
      rw [bne_iff_ne]
      rintro rfl
      exact free member
    cases entries with
    | nil => simpa using List.takeWhile_eq_self_iff.mpr kept
    | cons second entries =>
        rw [List.intercalate_cons_cons, List.append_assoc, List.takeWhile_append_of_pos kept]
        simp
  rw [← front firstFree rest, same, front otherFree more]

namespace MoqRelay

section Runs

variable [CryptoBackend] {relayName issuerName : Bytes} {history : List ((Nat × Call) × Answer)}
  {relay : MoqRelay} {required : AuthorizationInfo} {issued challenge : TokenChallenge} {token : Token}

/-- A token of a challenge with the info and of another challenge finds the same info in both, or the
two challenges collide. -/
theorem info_or_collide (encodable : required.Encodable) (created : relay.createChallenge required = .ok issued)
    (bound : issued.digest.1 = .ok token.challengeDigest) (settled : challenge.Settled)
    (digested : challenge.digest.1 = .ok token.challengeDigest) {first : Bytes} {rest : List Bytes}
    (found : challenge.originInfo = first :: rest) {info : AuthorizationInfo}
    (decoded : AuthorizationInfo.decodeFromOriginInfo first = .ok info) :
    info = required ∨ challenge.Collide issued := by
  rw [createChallenge_eq] at created
  obtain rfl := Except.ok.inj created
  rcases TokenChallenge.sameFields_or_collide settled (TokenChallenge.settled_create _ _ _ _) digested bound with
    same | collide
  · left
    obtain ⟨bytes, read, -⟩ := Result.bind_eq_ok.mp decoded
    have texts := same.originInfo
    rw [TokenChallenge.originInfoString, found] at texts
    have equal := first_of_join (comma_notMem_of_decode read) required.encode_entry.2.1 texts
    rw [equal, AuthorizationInfo.decodeFromOriginInfo_encode encodable] at decoded
    exact (Except.ok.inj decoded).symm
  · exact .inr collide

/-- In every run, a token whose challenge was created for an info is granted nothing beyond the info,
whatever challenge it is presented with, unless the two challenges collide. -/
theorem no_escalation
    (runs : machine.Runs Machine.clocked (create relayName issuerName) history relay)
    (encodable : required.Encodable) {created tick : Nat}
    (asked : ((created, .createChallenge required), .challenge (.ok issued)) ∈ history)
    (bound : issued.digest.1 = .ok token.challengeDigest) (settled : challenge.Settled) {action : Action}
    {ns : Namespace} {track : TrackName} {result : MoqVerificationResult}
    (presented : ((tick, .verifyAndAuthorize token challenge action ns track), .result result) ∈ history)
    (granted : result.valid = true) :
    required.authorizes action ns track = true ∨ challenge.Collide issued := by
  obtain ⟨before, after, whole⟩ := List.append_of_mem asked
  rw [whole] at runs presented
  obtain ⟨asking, -, -, answered, -⟩ := runs.split
  have created : asking.createChallenge required = .ok issued := (Answer.challenge.inj answered).symm
  obtain ⟨front, back, again⟩ := List.append_of_mem presented
  rw [again] at runs
  obtain ⟨granting, -, -, told, -⟩ := runs.split
  have same : result = (granting.verifyAndAuthorize tick token challenge action ns track).1 :=
    Answer.result.inj told
  rw [same] at granted
  obtain ⟨redeemed, info, first, rest, found, decoded, authorized, -⟩ := verifyAndAuthorize_valid.mp granted
  have accepts : (Verifier.tokenAuthenticator granting.authenticator).Accepts token challenge :=
    (validateAndRedeem_valid_iff.mp redeemed).2
  rcases info_or_collide encodable created bound settled accepts.digest found decoded with rfl | collide
  · exact .inl authorized
  · exact .inr collide

end Runs

section Instances

open MultiKeyIssuer (sharedBackend sharedTokenOf)

/-- The token of the shared key publishes, and the info of its challenge allows that. -/
theorem no_escalation_publisher : publisherInfo.authorizes .publish [[0x61]] [0x76] = true := by
  have allowed {n d : Nat} (exponents : BlindSignature.RsaExponents n 65537 d)
      (bits : bnNumBits n = rsaBits) : publisherInfo.authorizes .publish [[0x61]] [0x76] = true := by
    have settled : @TokenChallenge.Settled sharedBackend.toHashBackend publisherChallenge :=
      @TokenChallenge.settled_create sharedBackend.toHashBackend _ _ _ _
    have asked : ((0, .createChallenge publisherInfo), .challenge (.ok publisherChallenge)) ∈
        publishingHistory n d :=
      List.mem_append_left _ (List.mem_cons_of_mem _ (List.mem_singleton.mpr rfl))
    have presented : ((1, .verifyAndAuthorize (publisherToken n d) publisherChallenge .publish [[0x61]]
        [0x76]), .result (.success publisherInfo)) ∈ publishingHistory n d :=
      List.mem_append_right _ (List.mem_singleton.mpr rfl)
    have bound : (@TokenChallenge.digest sharedBackend.toHashBackend publisherChallenge).1 =
        .ok (publisherToken n d).challengeDigest := by
      simp only [sharedTokenOf]
      exact publisherChallenge_digest
    rcases @no_escalation sharedBackend.toCryptoBackend _ _ _ _ _ publisherChallenge publisherChallenge
      (publisherToken n d) (publishingHistory_runs exponents bits) publisherInfo_encodable 0 1 asked
      bound settled .publish [[0x61]] [0x76] (.success publisherInfo) presented rfl
      with authorized | collide
    · exact authorized
    · obtain ⟨left, right, digest, written, again, different, -⟩ := collide
      exact absurd (Except.ok.inj (written.symm.trans again)) different
  exact allowed recorded_exponents recordedModulus_bits

end Instances

end MoqRelay
end PrivacyPass.Moq
