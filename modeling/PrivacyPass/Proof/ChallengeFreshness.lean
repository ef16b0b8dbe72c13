import PrivacyPass.Construction.TokenAuthenticator
import PrivacyPass.Proof.ChallengeAgreement
import PrivacyPass.Proof.Origin.Verify

/-
This file proves which classes draw a fresh redemption context for their challenges.
-/

namespace PrivacyPass

open Library Crypto

/-- Four classes create challenges, and a call fixes the other arguments of the class. -/
inductive ChallengeCreator [CryptoBackend] where
  | publicOrigin (origin : PublicOrigin)
  | privateOrigin (origin : PrivateOrigin)
  | unifiedOrigin (origin : Origin) (type : TokenType)
  | tokenAuthenticator (authenticator : TokenAuthenticator) (type : TokenType)
      (additionalOriginInfo : List Bytes)

namespace ChallengeCreator

variable [CryptoBackend]

def createChallenge (creator : ChallengeCreator) (context draw : Option ChallengeDigest) :
    Result TokenChallenge :=
  match creator with
  | publicOrigin origin => origin.createChallenge context draw
  | privateOrigin origin => origin.createChallenge context draw
  | unifiedOrigin origin type => origin.createChallenge type context draw
  | tokenAuthenticator authenticator type additionalOriginInfo =>
      authenticator.createChallenge type context additionalOriginInfo

def requireRedemptionContext : ChallengeCreator → Bool
  | publicOrigin origin => origin.config.requireRedemptionContext
  | privateOrigin origin => origin.config.requireRedemptionContext
  | unifiedOrigin origin _ => origin.config.requireRedemptionContext
  | tokenAuthenticator authenticator _ _ => authenticator.config.requireRedemptionContext

/-- The challenges of a call differ in nothing but their contexts. -/
def challenge : ChallengeCreator → Option ChallengeDigest → TokenChallenge
  | publicOrigin origin, context =>
      .create .blindRsa origin.config.issuerName context origin.config.originNames
  | privateOrigin origin, context =>
      .create .voprfP384Sha384 origin.config.issuerName context origin.config.originNames
  | unifiedOrigin origin type, context =>
      .create type origin.config.issuerName context origin.config.originNames
  | tokenAuthenticator authenticator type additionalOriginInfo, context =>
      .create type authenticator.config.issuerName context
        (additionalOriginInfo ++ authenticator.config.originNames)

/-- The names of the call are within the limits of the encoder. -/
def Encodable (creator : ChallengeCreator) : Prop := (creator.challenge none).Encodable

/-- The class consults the random generator when it misses a required context. -/
def DrawsContext : ChallengeCreator → Prop
  | tokenAuthenticator _ _ _ => False
  | _ => True

/-- A drawn context goes into the challenge of every class but the authenticator. -/
theorem createChallenge_eq {creator : ChallengeCreator}
    (required : creator.requireRedemptionContext = true) (draw : ChallengeDigest) :
    (creator.DrawsContext → creator.createChallenge none (some draw) =
      .ok (creator.challenge (some draw))) ∧
    (¬ creator.DrawsContext → creator.createChallenge none (some draw) =
      .ok (creator.challenge none)) := by
  have drawn : redemptionContextOr creator.requireRedemptionContext none (some draw) =
      .ok (some draw) := by
    rw [redemptionContextOr, if_pos ⟨required, rfl⟩]
  cases creator with
  | tokenAuthenticator authenticator type additionalOriginInfo =>
      exact ⟨False.elim, fun _ => rfl⟩
  | publicOrigin origin =>
      refine ⟨fun _ => ?_, fun other => absurd trivial other⟩
      exact Result.bind_ok drawn
  | privateOrigin origin =>
      refine ⟨fun _ => ?_, fun other => absurd trivial other⟩
      exact Result.bind_ok drawn
  | unifiedOrigin origin type =>
      refine ⟨fun _ => ?_, fun other => absurd trivial other⟩
      exact Result.bind_ok drawn

/-- The wire form of a challenge of the call shows its context. -/
theorem serialize_challenge {creator : ChallengeCreator} (encodable : creator.Encodable) :
    ∃ type issuer text, ∀ context, (creator.challenge context).serialize =
      .ok (TokenChallenge.wire type issuer context text) := by
  have encodes (context : Option ChallengeDigest) : (creator.challenge context).Encodable := by
    cases creator <;> exact encodable
  have fields : ∃ type issuer origins, ∀ context,
      creator.challenge context = .create type issuer context origins := by
    cases creator <;> exact ⟨_, _, _, fun _ => rfl⟩
  obtain ⟨type, issuer, origins, same⟩ := fields
  refine ⟨type.value, issuer, (TokenChallenge.create type issuer none origins).originInfoString, ?_⟩
  intro context
  rw [TokenChallenge.serialize_ok (encodes context), same]
  rfl

/-- Two draws lead to two encodings and digests exactly in the classes that draw a context. -/
theorem createChallenge_fresh {creator : ChallengeCreator}
    (required : creator.requireRedemptionContext = true) (encodable : creator.Encodable)
    {first second : ChallengeDigest} (different : first ≠ second) :
    ∃ left right leftBytes rightBytes,
      creator.createChallenge none (some first) = .ok left ∧
      creator.createChallenge none (some second) = .ok right ∧
      left.serialize = .ok leftBytes ∧ right.serialize = .ok rightBytes ∧
      (leftBytes ≠ rightBytes ↔ creator.DrawsContext) ∧
      ((sha256 leftBytes = sha256 rightBytes → leftBytes = rightBytes) →
        (left.digest.1 ≠ right.digest.1 ↔ creator.DrawsContext)) := by
  obtain ⟨type, issuer, text, serialized⟩ := serialize_challenge encodable
  have fresh (context : Option ChallengeDigest) : (creator.challenge context).cachedDigest = none := by
    cases creator <;> rfl
  have hashed (context : Option ChallengeDigest) := TokenChallenge.digest_fresh (fresh context)
    (serialized context)
  by_cases draws : creator.DrawsContext
  · have bytes : TokenChallenge.wire type issuer (some first) text ≠
        TokenChallenge.wire type issuer (some second) text := fun equal =>
      different (Option.some.inj (TokenChallenge.wire_context_injective.mp equal))
    refine ⟨_, _, _, _, (createChallenge_eq required first).1 draws,
      (createChallenge_eq required second).1 draws, serialized _, serialized _,
      iff_of_true bytes draws, ?_⟩
    intro injective
    rw [hashed, hashed]
    exact iff_of_true (fun equal => bytes (injective equal)) draws
  · refine ⟨_, _, _, _, (createChallenge_eq required first).2 draws,
      (createChallenge_eq required second).2 draws, serialized _, serialized _, ?_, ?_⟩
    · exact iff_of_false (not_not.mpr rfl) draws
    · exact fun _ => iff_of_false (not_not.mpr rfl) draws

end ChallengeCreator

section Instances

/-- The default configuration of an authenticator asks for a context. -/
abbrev demandingAuthenticator : @ChallengeCreator zeroBackend :=
  @ChallengeCreator.tokenAuthenticator zeroBackend
    (@TokenAuthenticator.create zeroBackend { issuerName := [0x69], originNames := [] }) .blindRsa []

abbrev demandingOrigin : @ChallengeCreator zeroBackend :=
  @ChallengeCreator.publicOrigin zeroBackend
    (@PublicOrigin.create zeroBackend.toRsaBackend zeroConfig [])

theorem oneDigest_length : (List.replicate 32 (1 : UInt8)).length = 32 := rfl

def oneDigest : ChallengeDigest := ⟨List.replicate 32 1, oneDigest_length⟩

/-- A public origin gives two draws two encodings. -/
theorem createChallenge_fresh_origin :
    ∃ left right leftBytes rightBytes,
      @ChallengeCreator.createChallenge zeroBackend demandingOrigin none (some (.zero 32)) = .ok left ∧
      @ChallengeCreator.createChallenge zeroBackend demandingOrigin none (some oneDigest) = .ok right ∧
      left.serialize = .ok leftBytes ∧ right.serialize = .ok rightBytes ∧
      (leftBytes ≠ rightBytes ↔ @ChallengeCreator.DrawsContext zeroBackend demandingOrigin) ∧
      ((@sha256 zeroBackend.toHashBackend leftBytes = @sha256 zeroBackend.toHashBackend rightBytes →
          leftBytes = rightBytes) →
        ((@TokenChallenge.digest zeroBackend.toHashBackend left).1 ≠
            (@TokenChallenge.digest zeroBackend.toHashBackend right).1 ↔
          @ChallengeCreator.DrawsContext zeroBackend demandingOrigin)) :=
  @ChallengeCreator.createChallenge_fresh zeroBackend demandingOrigin rfl
    ⟨by decide, by decide, by decide⟩ _ _ (by decide)

/-- An authenticator that asks for a context gives two draws one encoding. -/
theorem createChallenge_fresh_authenticator :
    ¬ ∀ (creator : @ChallengeCreator zeroBackend),
      @ChallengeCreator.requireRedemptionContext zeroBackend creator = true →
      @ChallengeCreator.Encodable zeroBackend creator →
      ∀ (first second : ChallengeDigest) (left right : TokenChallenge), first ≠ second →
        @ChallengeCreator.createChallenge zeroBackend creator none (some first) = .ok left →
        @ChallengeCreator.createChallenge zeroBackend creator none (some second) = .ok right →
        left.serialize ≠ right.serialize := by
  intro always
  exact always demandingAuthenticator rfl ⟨by decide, by decide, by decide⟩ (.zero 32) oneDigest _ _
    (by decide) rfl rfl rfl

end Instances

end PrivacyPass
