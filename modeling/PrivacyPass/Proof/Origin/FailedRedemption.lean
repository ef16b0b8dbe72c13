import PrivacyPass.Proof.Origin.Verify
import PrivacyPass.Proof.Replay.Representation

/-
This file proves what a failed redemption leaves behind in the replay cache.
-/

namespace PrivacyPass

open Crypto

namespace ReplayCache

variable {cache : ReplayCache} {tick : Nat} {nonce : Nonce} {verified : Result Bool}

/-- Both origins reserve the nonce and then return what the verification returns. -/
def redeem (cache : ReplayCache) (tick : Nat) (nonce : Nonce) (verified : Result Bool) :
    Result Bool × ReplayCache :=
  if (cache.checkAndAdd tick nonce).1 = false then
    (.error ⟨.tokenReplayed, "Token has already been redeemed"⟩, (cache.checkAndAdd tick nonce).2)
  else (verified, (cache.checkAndAdd tick nonce).2)

/-- A known nonce is refused, and the cache is only pruned. -/
theorem redeem_of_known (known : nonce ∈ (cache.pruneExpired tick).allNonces) :
    cache.redeem tick nonce verified =
      (.error ⟨.tokenReplayed, "Token has already been redeemed"⟩, cache.pruneExpired tick) := by
  rw [redeem, checkAndAdd_of_known known]
  rfl

/-- A fresh nonce is recorded whatever the verification returns. -/
theorem redeem_of_fresh (fresh : nonce ∉ (cache.pruneExpired tick).allNonces) :
    cache.redeem tick nonce verified =
      (verified, (cache.pruneExpired tick).addToBucket tick nonce) := by
  rw [redeem, checkAndAdd_of_fresh fresh]
  rfl

/-- A redemption that does not accept leaves the nonces and the answers of the pruned cache exactly
when its nonce was recorded before, and a success is no failure. -/
theorem redeem_spares {α : Type} (answer : ReplayCache → α) :
    ((cache.redeem tick nonce verified).1 ≠ .ok true →
      (cache.redeem tick nonce verified).2.allNonces = (cache.pruneExpired tick).allNonces ∧
        answer (cache.redeem tick nonce verified).2 = answer (cache.pruneExpired tick)) ↔
      nonce ∈ (cache.pruneExpired tick).allNonces ∨ verified = .ok true := by
  by_cases known : nonce ∈ (cache.pruneExpired tick).allNonces
  · refine iff_of_true ?_ (.inl known)
    intro _
    rw [redeem_of_known known]
    exact ⟨rfl, rfl⟩
  · rw [redeem_of_fresh known, or_iff_right known]
    constructor
    · intro spares
      by_contra failed
      have recorded : insert nonce (cache.pruneExpired tick).allNonces =
          (cache.pruneExpired tick).allNonces := (spares failed).1
      exact known (Finset.insert_eq_self.mp recorded)
    · intro accepted failed
      exact absurd accepted failed

end ReplayCache

/-- The cache of a public origin is all that a redemption changes. -/
theorem PublicOrigin.verifyAndRedeem_eq [RsaBackend] (origin : PublicOrigin) (tick : Nat)
    (token : Token) (challenge : TokenChallenge) :
    let outcome := origin.replayCache.redeem tick token.nonce (origin.verify token challenge)
    origin.verifyAndRedeem tick token challenge = (outcome.1, { origin with replayCache := outcome.2 }) := by
  unfold verifyAndRedeem ReplayCache.redeem
  dsimp only
  split <;> rfl

theorem Origin.verifyAndRedeem_eq [CryptoBackend] (origin : Origin) (tick : Nat) (token : Token)
    (challenge : TokenChallenge) :
    let outcome := origin.replayCache.redeem tick token.nonce (origin.verify token challenge)
    origin.verifyAndRedeem tick token challenge = (outcome.1, { origin with replayCache := outcome.2 }) := by
  unfold verifyAndRedeem ReplayCache.redeem
  dsimp only
  split <;> rfl

/-- A redemption that does not accept records no nonce, and every later redemption answers as after
the pruning alone. -/
def PublicOrigin.SparesFailure [RsaBackend] (origin : PublicOrigin) (tick : Nat) (token : Token)
    (challenge : TokenChallenge) : Prop :=
  (origin.verifyAndRedeem tick token challenge).1 ≠ .ok true →
    (origin.verifyAndRedeem tick token challenge).2.replayCache.allNonces =
      (origin.replayCache.pruneExpired tick).allNonces ∧
    ∀ later retried expected,
      ((origin.verifyAndRedeem tick token challenge).2.verifyAndRedeem later retried expected).1 =
        ({ origin with replayCache := origin.replayCache.pruneExpired tick }.verifyAndRedeem later
          retried expected).1

def Origin.SparesFailure [CryptoBackend] (origin : Origin) (tick : Nat) (token : Token)
    (challenge : TokenChallenge) : Prop :=
  (origin.verifyAndRedeem tick token challenge).1 ≠ .ok true →
    (origin.verifyAndRedeem tick token challenge).2.replayCache.allNonces =
      (origin.replayCache.pruneExpired tick).allNonces ∧
    ∀ later retried expected,
      ((origin.verifyAndRedeem tick token challenge).2.verifyAndRedeem later retried expected).1 =
        ({ origin with replayCache := origin.replayCache.pruneExpired tick }.verifyAndRedeem later
          retried expected).1

/-- A redemption spends nothing exactly when its nonce was recorded before or its token is valid. -/
theorem verifyAndRedeem_spares [CryptoBackend] (tick : Nat) (token : Token)
    (challenge : TokenChallenge) :
    (∀ origin : PublicOrigin, origin.SparesFailure tick token challenge ↔
      token.nonce ∈ (origin.replayCache.pruneExpired tick).allNonces ∨
        origin.verify token challenge = .ok true) ∧
    ∀ origin : Origin, origin.SparesFailure tick token challenge ↔
      token.nonce ∈ (origin.replayCache.pruneExpired tick).allNonces ∨
        origin.verify token challenge = .ok true := by
  constructor
  · intro origin
    rw [← ReplayCache.redeem_spares fun cache later retried expected =>
      ({ origin with replayCache := cache }.verifyAndRedeem later retried expected).1]
    simp only [PublicOrigin.SparesFailure, origin.verifyAndRedeem_eq tick token challenge, funext_iff]
  · intro origin
    rw [← ReplayCache.redeem_spares fun cache later retried expected =>
      ({ origin with replayCache := cache }.verifyAndRedeem later retried expected).1]
    simp only [Origin.SparesFailure, origin.verifyAndRedeem_eq tick token challenge, funext_iff]

section Instances

abbrev zeroOrigin : PublicOrigin := @PublicOrigin.create zeroBackend.toRsaBackend zeroConfig [zeroKey]

theorem strayKeyId_length : (List.replicate 32 (1 : UInt8)).length = 32 := rfl

/-- This token names no held key, and its nonce is the one of the valid token. -/
def strayToken : Token := { zeroToken with tokenKeyId := ⟨List.replicate 32 1, strayKeyId_length⟩ }

theorem strayToken_refused :
    @PublicOrigin.verify zeroBackend.toRsaBackend zeroOrigin strayToken zeroChallenge ≠ .ok true := by
  intro accepted
  obtain ⟨-, -, -, key, held, -⟩ := (@PublicOrigin.verify_eq_ok zeroBackend.toRsaBackend ..).mp accepted
  have other :=
    (@PublicOrigin.holdsKey_addIssuerKey zeroBackend.toRsaBackend _ _ _ _ _ zeroKey_keyId).mp held
  rw [if_neg (by decide)] at other
  obtain ⟨index, found, -⟩ := other
  cases found

abbrev strayedOrigin : PublicOrigin :=
  (@PublicOrigin.verifyAndRedeem zeroBackend.toRsaBackend zeroOrigin 0 strayToken zeroChallenge).2

/-- A token with an unknown key fails, and the valid token with its nonce is then a replay. -/
theorem verifyAndRedeem_spares_stray :
    ¬ @PublicOrigin.SparesFailure zeroBackend.toRsaBackend zeroOrigin 0 strayToken zeroChallenge ∧
      @PublicOrigin.verify zeroBackend.toRsaBackend strayedOrigin zeroToken zeroChallenge = .ok true ∧
      (@PublicOrigin.verifyAndRedeem zeroBackend.toRsaBackend strayedOrigin 1 zeroToken
        zeroChallenge).1 = .error ⟨.tokenReplayed, "Token has already been redeemed"⟩ := by
  refine ⟨?_, zeroToken_verified zeroConfig, by decide⟩
  intro spares
  have fresh : strayToken.nonce ∉ (zeroOrigin.replayCache.pruneExpired 0).allNonces := by decide
  unfold PublicOrigin.SparesFailure at spares
  rw [@PublicOrigin.verifyAndRedeem_eq zeroBackend.toRsaBackend,
    ReplayCache.redeem_of_fresh fresh] at spares
  have recorded := (spares strayToken_refused).1
  revert recorded
  decide

end Instances

end PrivacyPass
