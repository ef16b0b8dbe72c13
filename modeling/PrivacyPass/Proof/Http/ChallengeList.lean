import PrivacyPass.Proof.Http.AuthScheme
import PrivacyPass.Proof.Wire.Challenge

/-
This file proves that a header of several challenges is read back in its order.
-/

namespace PrivacyPass.Http

/-- An origin offers a challenge with the key of its issuer and an age. -/
structure Offer where
  challenge : TokenChallenge
  tokenKey : Bytes
  maxAge : Option UInt32

namespace Offer

def build (offer : Offer) : Result Bytes :=
  buildWwwAuthenticate offer.challenge offer.tokenKey offer.maxAge

/-- The parsed header has the challenge, the key and the age of the offer. -/
structure Carries (offer : Offer) (header : ChallengeHeader) : Prop where
  challenge : Base64Url.decode header.challenge = offer.challenge.serialize
  tokenKey : header.decodeTokenKey = .ok offer.tokenKey
  maxAge : header.maxAge = offer.maxAge

/-- An offer with an encodable challenge is written as a plain header. -/
theorem build_eq {offer : Offer} {bytes : Bytes} (serialized : offer.challenge.serialize = .ok bytes) :
    ∃ header : ChallengeHeader, offer.build = .ok header.format ∧ header.IsPlain ∧
      header.challenge ≠ [] ∧ offer.Carries header := by
  have nonempty : bytes ≠ [] := by
    intro empty
    have length := TokenChallenge.serializedSize_exact serialized
    rw [empty, TokenChallenge.serializedSize] at length
    simp only [List.length_nil] at length
    omega
  refine ⟨⟨Base64Url.encodePadded bytes, some (Base64Url.encodePadded offer.tokenKey), offer.maxAge⟩,
    ?_, ⟨plain_encodePadded bytes, ?_⟩, encodePadded_ne_nil nonempty, ?_⟩
  · rw [build, buildWwwAuthenticate, Result.bind_ok serialized]
  · intro text member
    cases member
    exact plain_encodePadded offer.tokenKey
  · constructor
    · rw [serialized]
      exact Base64Url.decode_encodePadded bytes
    · exact Base64Url.decode_encodePadded offer.tokenKey
    · rfl

end Offer

namespace ChallengeHeader

/-- The comma and the blank stand between two challenges. -/
def separator : Bytes := ascii ", "

/-- The loop cuts the text at the separator in front of the next challenge. -/
theorem splitLoop_next (challenge : Bytes) (params : Bytes) :
    splitLoop false false challenge (separator ++ (schemeName ++ params)) =
      challenge :: splitLoop false false [] (schemeName ++ params) := by
  have start : separator ++ (schemeName ++ params) = comma :: 0x20 :: (schemeName ++ params) := rfl
  have blanks : skipBlanks (0x20 :: (schemeName ++ params)) = schemeName ++ params := rfl
  have found := (schemeName_append params).1
  rw [start, splitLoop, blanks, found]
  rfl

/-- A joined text starts with the name of the scheme. -/
theorem join_start (header : ChallengeHeader) (headers : List ChallengeHeader) :
    ∃ params, separator.intercalate ((header :: headers).map format) = schemeName ++ params := by
  cases headers with
  | nil =>
      rw [List.map_singleton, List.intercalate_singleton]
      exact ⟨_, format_eq header⟩
  | cons next headers =>
      rw [List.map_cons, List.map_cons, List.intercalate_cons_cons, format_eq, List.append_assoc,
        List.append_assoc]
      exact ⟨_, rfl⟩

/-- The headers of a joined text are its challenges. -/
theorem split_join {headers : List ChallengeHeader} (nonempty : headers ≠ [])
    (plain : ∀ header ∈ headers, header.IsPlain) :
    splitPrivateTokenChallenges (separator.intercalate (headers.map format)) = headers.map format := by
  unfold splitPrivateTokenChallenges
  induction headers with
  | nil => exact absurd rfl nonempty
  | cons header headers ih =>
      have first := splitLoop_format (plain header List.mem_cons_self)
      cases headers with
      | nil =>
          have whole := first []
          rw [List.append_nil] at whole
          rw [List.map_singleton, List.intercalate_singleton, whole, splitLoop]
      | cons next headers =>
          have tail := ih (List.cons_ne_nil next headers) fun other member =>
            plain other (List.mem_cons_of_mem _ member)
          obtain ⟨params, start⟩ := join_start next headers
          rw [List.map_cons, List.map_cons, List.intercalate_cons_cons, ← List.map_cons,
            List.append_assoc, first, start, splitLoop_next, ← start, tail]

/-- Every plain header of the joined text is read back. -/
theorem parseAll_join {headers : List ChallengeHeader} (nonempty : headers ≠ [])
    (plain : ∀ header ∈ headers, header.IsPlain) (named : ∀ header ∈ headers, header.challenge ≠ []) :
    parseAll (separator.intercalate (headers.map format)) = .ok headers := by
  have parsed : (headers.map format).mapM parseChallenge = .ok headers := by
    clear nonempty
    induction headers with
    | nil => rfl
    | cons header headers ih =>
        rw [List.map_cons, List.mapM_cons, Result.bind_ok (parseChallenge_format
          (plain header List.mem_cons_self) (named header List.mem_cons_self)), Result.bind_ok
          (ih (fun other member => plain other (List.mem_cons_of_mem _ member))
            fun other member => named other (List.mem_cons_of_mem _ member))]
        rfl
  rw [parseAll, split_join nonempty plain, parsed]

end ChallengeHeader

/-- The joined headers of the offers are read back as the offers in their order. -/
theorem parseAll_offers {offers : List Offer} (nonempty : offers ≠ [])
    (serialized : ∀ offer ∈ offers, ∃ bytes, offer.challenge.serialize = .ok bytes) :
    ∃ texts headers, offers.mapM Offer.build = .ok texts ∧
      ChallengeHeader.parseAll ((ascii ", ").intercalate texts) = .ok headers ∧
      headers.length = offers.length ∧ List.Forall₂ Offer.Carries offers headers := by
  have built : ∃ headers : List ChallengeHeader,
      offers.mapM Offer.build = .ok (headers.map ChallengeHeader.format) ∧
      (∀ header ∈ headers, header.IsPlain ∧ header.challenge ≠ []) ∧
      List.Forall₂ Offer.Carries offers headers := by
    clear nonempty
    induction offers with
    | nil => exact ⟨[], rfl, by simp, .nil⟩
    | cons offer offers ih =>
        obtain ⟨bytes, encoded⟩ := serialized offer List.mem_cons_self
        obtain ⟨header, written, plain, named, carries⟩ := Offer.build_eq encoded
        obtain ⟨headers, others, good, all⟩ := ih fun other member =>
          serialized other (List.mem_cons_of_mem _ member)
        refine ⟨header :: headers, ?_, ?_, .cons carries all⟩
        · rw [List.mapM_cons, Result.bind_ok written, Result.bind_ok others]
          rfl
        · exact List.forall_mem_cons.mpr ⟨⟨plain, named⟩, good⟩
  obtain ⟨headers, written, good, carries⟩ := built
  have some : headers ≠ [] := by
    rintro rfl
    exact nonempty (List.forall₂_nil_right_iff.mp carries)
  refine ⟨headers.map ChallengeHeader.format, headers, written, ?_, carries.length_eq.symm, carries⟩
  exact ChallengeHeader.parseAll_join some (fun header member => (good header member).1)
    fun header member => (good header member).2

section Instances

def firstOffer : Offer := ⟨.create .blindRsa [0x69] none [], [], some 600⟩

def secondOffer : Offer := ⟨.create .voprfP384Sha384 [0x6A] none [[0x61], [0x62]], [1, 2, 3], none⟩

/-- Two offers are read back, one of them without a key and the other one without an age. -/
theorem parseAll_offers_two :
    ∃ texts headers, [firstOffer, secondOffer].mapM Offer.build = .ok texts ∧
      ChallengeHeader.parseAll ((ascii ", ").intercalate texts) = .ok headers ∧
      headers.length = [firstOffer, secondOffer].length ∧
      List.Forall₂ Offer.Carries [firstOffer, secondOffer] headers := by
  apply parseAll_offers (List.cons_ne_nil _ _)
  intro offer member
  rcases List.mem_pair.mp member with rfl | rfl
  · exact ⟨[0, 2, 0, 1, 0x69, 0, 0, 0], rfl⟩
  · exact ⟨[0, 1, 0, 1, 0x6A, 0, 0, 3, 0x61, 0x2C, 0x62], rfl⟩

end Instances

end PrivacyPass.Http
