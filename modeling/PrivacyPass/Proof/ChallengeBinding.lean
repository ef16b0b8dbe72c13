import PrivacyPass.Proof.Authenticator.Agreement
import PrivacyPass.Proof.ChallengeAgreement
import PrivacyPass.Proof.Wire.Challenge

/-
This file proves that a token is bound to the fields of its challenge, up to a collision of the hash.
-/

namespace PrivacyPass

open Library Crypto

namespace TokenChallenge

theorem u16Bytes_injective {left right : UInt16} (equal : u16Bytes left = u16Bytes right) :
    left = right := by
  obtain ⟨high, low⟩ := List.cons.inj equal
  rw [← ByteReader.u16Bytes_join left, high, List.head_eq_of_cons_eq low, ByteReader.u16Bytes_join]

/-- A context ends where its length field tells it to. -/
theorem contextWire_append {left right : Option ChallengeDigest} {rest more : Bytes}
    (equal : contextWire left ++ rest = contextWire right ++ more) : left = right ∧ rest = more := by
  cases left with
  | none =>
      cases right with
      | none => exact ⟨rfl, (List.cons.inj equal).2⟩
      | some right => cases (List.cons.inj equal).1
  | some left =>
      cases right with
      | none => cases (List.cons.inj equal).1
      | some right =>
          obtain ⟨same, tails⟩ := List.append_inj (List.cons.inj equal).2
            (left.property.trans right.property.symm)
          exact ⟨congrArg some (Subtype.ext same), tails⟩

/-- A sized word ends where its length field tells it to. -/
theorem sized_append {left right rest more : Bytes} (leftFits : left.length ≤ 65535)
    (rightFits : right.length ≤ 65535)
    (equal : u16Bytes left.length.toUInt16 ++ (left ++ rest) =
      u16Bytes right.length.toUInt16 ++ (right ++ more)) : left = right ∧ rest = more := by
  obtain ⟨lengths, tails⟩ := List.append_inj equal rfl
  have same : left.length = right.length := by
    rw [← length_toUInt16 leftFits, ← length_toUInt16 rightFits, u16Bytes_injective lengths]
  exact List.append_inj tails same

/-- The wire format determines all four fields. -/
theorem wire_injective {type other : UInt16} {issuer name text words : Bytes}
    {context given : Option ChallengeDigest} (issuerFits : issuer.length ≤ 65535)
    (nameFits : name.length ≤ 65535)
    (equal : wire type issuer context text = wire other name given words) :
    type = other ∧ issuer = name ∧ context = given ∧ text = words := by
  obtain ⟨types, issuers⟩ := List.append_inj equal rfl
  obtain ⟨sameIssuer, contexts⟩ := sized_append issuerFits nameFits issuers
  obtain ⟨sameContext, texts⟩ := contextWire_append contexts
  exact ⟨u16Bytes_injective types, sameIssuer, sameContext, (List.append_inj texts rfl).2⟩

section Binding

variable [HashBackend] {left right challenge : TokenChallenge} {digest : ChallengeDigest}

/-- A filled cache holds the digest of the encoding. -/
def Settled (challenge : TokenChallenge) : Prop :=
  ∀ digest ∈ challenge.cachedDigest, ∃ bytes, challenge.serialize = .ok bytes ∧ sha256 bytes = .ok digest

theorem settled_create (type : TokenType) (issuer : Bytes) (context : Option ChallengeDigest)
    (origins : List Bytes) : (create type issuer context origins).Settled := by
  rintro digest ⟨⟩

/-- The digest of a settled challenge is the hash of its encoding. -/
theorem Settled.digest_ok (settled : challenge.Settled) (digested : challenge.digest.1 = .ok digest) :
    ∃ bytes, challenge.serialize = .ok bytes ∧ sha256 bytes = .ok digest := by
  unfold TokenChallenge.digest at digested
  split at digested
  · next cached filled =>
      obtain rfl := Except.ok.inj digested
      exact settled cached filled
  · split at digested
    · cases digested
    · next bytes serialized =>
        split at digested
        · next hash hashed =>
            obtain rfl := Except.ok.inj digested
            exact ⟨bytes, serialized, hashed⟩
        · cases digested

/-- The encodings of the two challenges differ and have the same hash. -/
def Collide (left right : TokenChallenge) : Prop :=
  ∃ leftBytes rightBytes digest, left.serialize = .ok leftBytes ∧ right.serialize = .ok rightBytes ∧
    leftBytes ≠ rightBytes ∧ sha256 leftBytes = .ok digest ∧ sha256 rightBytes = .ok digest

/-- The two challenges have the same fields on the wire. -/
structure SameFields (left right : TokenChallenge) : Prop where
  tokenType : left.tokenType = right.tokenType
  issuerName : left.issuerName = right.issuerName
  redemptionContext : left.redemptionContext = right.redemptionContext
  originInfo : left.originInfoString = right.originInfoString

/-- Two challenges with one digest have the same fields or collide. -/
theorem sameFields_or_collide (leftSettled : left.Settled) (rightSettled : right.Settled)
    (leftDigest : left.digest.1 = .ok digest) (rightDigest : right.digest.1 = .ok digest) :
    SameFields left right ∨ Collide left right := by
  obtain ⟨leftBytes, leftSerialized, leftHash⟩ := leftSettled.digest_ok leftDigest
  obtain ⟨rightBytes, rightSerialized, rightHash⟩ := rightSettled.digest_ok rightDigest
  by_cases same : leftBytes = rightBytes
  · obtain ⟨leftEncodable, rfl⟩ := serialize_eq_ok.mp leftSerialized
    obtain ⟨rightEncodable, rfl⟩ := serialize_eq_ok.mp rightSerialized
    obtain ⟨types, issuers, contexts, texts⟩ :=
      wire_injective leftEncodable.2.1 rightEncodable.2.1 same
    exact .inl ⟨congrArg TokenType.mk types, issuers, contexts, texts⟩
  · exact .inr ⟨leftBytes, rightBytes, digest, leftSerialized, rightSerialized, same, leftHash, rightHash⟩

/-- The entries of an origin info can be told apart in its text. -/
def Separable (challenge : TokenChallenge) : Prop :=
  ∀ entry ∈ challenge.originInfo, entry ≠ [] ∧ comma ∉ entry

omit [HashBackend] in
/-- The text of separable entries determines them. -/
theorem SameFields.entries (same : SameFields left right) (leftSeparable : left.Separable)
    (rightSeparable : right.Separable) : left.originInfo = right.originInfo := by
  have leftPieces : Pieces.pieces comma left.originInfoString = left.originInfo :=
    Pieces.pieces_join (fun entry member => (leftSeparable entry member).2)
      fun entry member => (leftSeparable entry member).1
  have rightPieces : Pieces.pieces comma right.originInfoString = right.originInfo :=
    Pieces.pieces_join (fun entry member => (rightSeparable entry member).2)
      fun entry member => (rightSeparable entry member).1
  rw [← leftPieces, ← rightPieces, same.originInfo]

end Binding

end TokenChallenge

/-- Four classes decide about a token and its challenge. -/
inductive Verifier [CryptoBackend] where
  | publicOrigin (origin : PublicOrigin)
  | privateOrigin (origin : PrivateOrigin)
  | unifiedOrigin (origin : Origin)
  | tokenAuthenticator (authenticator : TokenAuthenticator)

namespace Verifier

section Decisions

variable [CryptoBackend] {verifier other : Verifier} {token : Token} {left right challenge : TokenChallenge}

def Accepts (verifier : Verifier) (token : Token) (challenge : TokenChallenge) : Prop :=
  match verifier with
  | publicOrigin origin => origin.verify token challenge = .ok true
  | privateOrigin origin => origin.validateStructure token challenge = .ok true
  | unifiedOrigin origin => origin.verify token challenge = .ok true
  | tokenAuthenticator authenticator => (authenticator.validate token challenge).valid = true

/-- An accepted token carries the digest of its challenge. -/
theorem Accepts.digest (accepts : verifier.Accepts token challenge) :
    challenge.digest.1 = .ok token.challengeDigest := by
  have unified {origin : Origin} (verified : origin.verify token challenge = .ok true) :
      challenge.digest.1 = .ok token.challengeDigest := by
    unfold Origin.verify at verified
    split at verified
    · split at verified
      · exact (PublicOrigin.verify_eq_ok.mp verified).2.2.1
      · cases verified
    · split at verified <;> cases verified
  cases verifier with
  | publicOrigin origin => exact (PublicOrigin.verify_eq_ok.mp accepts).2.2.1
  | privateOrigin origin =>
      change origin.validateStructure token challenge = .ok true at accepts
      obtain ⟨done, -, accepted⟩ := Result.bind_eq_ok.mp accepts
      split at accepted
      · cases accepted
      · obtain ⟨digest, digested, compared⟩ := Result.bind_eq_ok.mp accepted
        split at compared
        · cases compared
        · next same =>
            rw [Bool.not_eq_false, constantTimeEqual_iff] at same
            rw [digested, Subtype.ext same]
  | unifiedOrigin origin => exact unified accepts
  | tokenAuthenticator authenticator => exact unified (TokenAuthenticator.check_valid_iff.mp accepts)

/-- A token that two verifiers accept for two challenges binds the two to the same type, issuer,
context and origin names, unless the encodings of the challenges collide. -/
theorem accepts_binds (leftSettled : left.Settled) (rightSettled : right.Settled)
    (leftSeparable : left.Separable) (rightSeparable : right.Separable)
    (accepts : verifier.Accepts token left) (again : other.Accepts token right) :
    (left.tokenType = right.tokenType ∧ left.issuerName = right.issuerName ∧
      left.redemptionContext = right.redemptionContext ∧ left.originInfo = right.originInfo) ∨
    left.Collide right := by
  rcases TokenChallenge.sameFields_or_collide leftSettled rightSettled accepts.digest again.digest with
    same | collide
  · exact .inl ⟨same.tokenType, same.issuerName, same.redemptionContext,
      same.entries leftSeparable rightSeparable⟩
  · exact .inr collide

end Decisions

section Instances

open MultiKeyIssuer (sharedBackend sharedRsaKey sharedToken sharedTokenOf_verified sharedDigest
  sharedDigest_eq)
open TokenAuthenticator (briefConfig trustingAuthenticator trustingAuthenticator_valid)

/-- This challenge holds its digest, while the challenge itself holds none. -/
def digestedChallenge : TokenChallenge := { pssChallenge with cachedDigest := some sharedDigest }

theorem digestedChallenge_settled :
    @TokenChallenge.Settled sharedBackend.toHashBackend digestedChallenge := by
  intro digest cached
  have hashed := @TokenChallenge.Settled.digest_ok sharedBackend.toHashBackend pssChallenge _
    (@TokenChallenge.settled_create sharedBackend.toHashBackend _ _ _ _) sharedDigest_eq
  rw [← Option.some.inj cached]
  exact hashed

/-- An origin holds the key of a modulus. -/
abbrev holdingVerifier (n : Nat) : @Verifier sharedBackend.toCryptoBackend :=
  @publicOrigin sharedBackend.toCryptoBackend
    (@PublicOrigin.create sharedBackend.toRsaBackend zeroConfig [sharedRsaKey n])

abbrev trustingVerifier (n : Nat) : @Verifier sharedBackend.toCryptoBackend :=
  @tokenAuthenticator sharedBackend.toCryptoBackend (trustingAuthenticator briefConfig [0x69] n)

/-- One token passes an authenticator for a challenge and an origin for the challenge with its digest,
and the two challenges agree. -/
theorem accepts_binds_recorded :
    @Accepts sharedBackend.toCryptoBackend (trustingVerifier recordedModulus)
      (sharedToken recordedModulus recordedExponent) pssChallenge ∧
    @Accepts sharedBackend.toCryptoBackend (holdingVerifier recordedModulus)
      (sharedToken recordedModulus recordedExponent) digestedChallenge ∧
    digestedChallenge.cachedDigest ≠ pssChallenge.cachedDigest ∧
    pssChallenge.issuerName = digestedChallenge.issuerName ∧
    pssChallenge.originInfo = digestedChallenge.originInfo := by
  have digested : (@TokenChallenge.digest sharedBackend.toHashBackend digestedChallenge).1 =
      .ok sharedDigest := rfl
  have accepts : @Accepts sharedBackend.toCryptoBackend (trustingVerifier recordedModulus)
      (sharedToken recordedModulus recordedExponent) pssChallenge :=
    trustingAuthenticator_valid recorded_exponents recordedModulus_bits briefConfig [0x69]
  have again : @Accepts sharedBackend.toCryptoBackend (holdingVerifier recordedModulus)
      (sharedToken recordedModulus recordedExponent) digestedChallenge :=
    sharedTokenOf_verified digested recorded_exponents recordedModulus_bits zeroConfig
  have separable : pssChallenge.Separable := by
    simp only [TokenChallenge.Separable]
    decide
  refine ⟨accepts, again, nofun, ?_⟩
  rcases @accepts_binds sharedBackend.toCryptoBackend _ _ _ _ _
    (@TokenChallenge.settled_create sharedBackend.toHashBackend _ _ _ _) digestedChallenge_settled
    separable separable accepts again with same | collide
  · exact ⟨same.2.1, same.2.2.2⟩
  · -- both challenges have one encoding
    obtain ⟨left, right, -, leftSerialized, rightSerialized, different, -⟩ := collide
    exact absurd (Except.ok.inj (leftSerialized.symm.trans rightSerialized)) different

end Instances

end Verifier

end PrivacyPass
