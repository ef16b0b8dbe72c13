import PrivacyPass.Proof.Authenticator.Redemption

/-
This file proves that a redemption is a validation that reserves its nonce.
-/

namespace PrivacyPass.TokenAuthenticator

open Library Crypto

variable [CryptoBackend] (authenticator : TokenAuthenticator) (now : Nat) (token : Token)
  (challenge : TokenChallenge)

/-- A recorded nonce takes the first exit. -/
theorem redeemSequence_replayed (recorded : token.nonce ∈ authenticator.cache.redeemedNonces) :
    authenticator.redeemSequence now token challenge =
      (.replayed, .failure .tokenReplayed "Token has already been redeemed", authenticator) := by
  rw [redeemSequence, if_pos recorded]

/-- Each exit with a fresh nonce gives the result of the validation, and only the last one moves the
authenticator. -/
theorem redeemSequence_fresh (fresh : token.nonce ∉ authenticator.cache.redeemedNonces) :
    (authenticator.redeemSequence now token challenge).2.1 = authenticator.validate token challenge ∧
      (authenticator.redeemSequence now token challenge).1 ≠ .replayedLate ∧
      (authenticator.redeemSequence now token challenge).2.2 =
        if (authenticator.validate token challenge).valid = true then
          (authenticator.checkAndAddNonce now token.nonce).2
        else authenticator := by
  have accepted := (checkAndAddNonce_fresh fresh now).1
  rw [redeemSequence, if_neg fresh, validate, check]
  cases token.validate with
  | error error => exact ⟨rfl, RedeemExit.noConfusion, rfl⟩
  | ok structured =>
      cases challenge.digest.1 with
      | error error => exact ⟨rfl, RedeemExit.noConfusion, rfl⟩
      | ok digest =>
          dsimp only
          split
          · exact ⟨rfl, RedeemExit.noConfusion, rfl⟩
          · cases authenticator.origin.verify token challenge with
            | error error => exact ⟨rfl, RedeemExit.noConfusion, rfl⟩
            | ok answer =>
                cases answer with
                | false => exact ⟨rfl, RedeemExit.noConfusion, rfl⟩
                | true =>
                    dsimp only
                    rw [if_neg (by rw [accepted]; decide)]
                    exact ⟨rfl, RedeemExit.noConfusion, rfl⟩

/-- The redemption takes these exits. -/
theorem validateAndRedeem_eq : authenticator.validateAndRedeem now token challenge =
    (authenticator.redeemSequence now token challenge).2 := by
  unfold validateAndRedeem
  split
  · next recorded => rw [authenticator.redeemSequence_replayed now token challenge recorded]
  · next fresh =>
      have accepted := (checkAndAddNonce_fresh fresh now).1
      obtain ⟨result, -, moved⟩ := authenticator.redeemSequence_fresh now token challenge fresh
      rw [validate] at result moved
      dsimp only
      split
      · next invalid =>
          rw [if_neg (by rw [invalid]; decide)] at moved
          exact (Prod.ext result moved).symm
      · next valid =>
          rw [if_pos (by simpa using valid)] at moved
          rw [if_neg (by rw [accepted]; decide)]
          exact (Prod.ext result moved).symm

/-- A redemption refuses a recorded nonce, answers a fresh one as the validation does, records the
nonce of a success and nothing else, and never finds the nonce after its checks. -/
theorem validateAndRedeem_refines :
    authenticator.validateAndRedeem now token challenge =
        (authenticator.redeemSequence now token challenge).2 ∧
      (token.nonce ∈ authenticator.cache.redeemedNonces →
        (authenticator.validateAndRedeem now token challenge).1 =
          .failure .tokenReplayed "Token has already been redeemed") ∧
      (token.nonce ∉ authenticator.cache.redeemedNonces →
        (authenticator.validateAndRedeem now token challenge).1 =
          authenticator.validate token challenge) ∧
      ((authenticator.validateAndRedeem now token challenge).2.cache.redeemedNonces ≠
          authenticator.cache.redeemedNonces →
        (authenticator.validateAndRedeem now token challenge).1.valid = true) ∧
      ((authenticator.validateAndRedeem now token challenge).1.valid = true →
        token.nonce ∈ (authenticator.validateAndRedeem now token challenge).2.cache.redeemedNonces) ∧
      (authenticator.redeemSequence now token challenge).1 ≠ .replayedLate := by
  rw [validateAndRedeem_eq]
  by_cases recorded : token.nonce ∈ authenticator.cache.redeemedNonces
  · rw [authenticator.redeemSequence_replayed now token challenge recorded]
    exact ⟨rfl, fun _ => rfl, fun fresh => absurd recorded fresh, fun changed => absurd rfl changed,
      fun _ => recorded, RedeemExit.noConfusion⟩
  · obtain ⟨result, exits, moved⟩ := authenticator.redeemSequence_fresh now token challenge recorded
    rw [result, moved]
    refine ⟨rfl, fun member => absurd member recorded, fun _ => rfl, ?_, ?_, exits⟩
    · intro changed
      by_contra invalid
      rw [if_neg invalid] at changed
      exact changed rfl
    · intro valid
      rw [if_pos valid]
      exact (checkAndAddNonce_fresh recorded now).2

end PrivacyPass.TokenAuthenticator
