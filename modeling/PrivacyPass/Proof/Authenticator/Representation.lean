import PrivacyPass.Proof.Authenticator.Eviction

/-
This file proves how the set and the queue of a redemption cache belong together in every run.
-/

namespace PrivacyPass

open Library Crypto

namespace NonceCache

variable {limit clock : Nat} {cache : NonceCache}

/-- The set holds exactly the nonces of the queue. -/
theorem Coherent.mem_iff (coherent : cache.Coherent) {nonce : Nonce} :
    nonce ∈ cache.redeemedNonces ↔ ∃ entry ∈ cache.nonceEntries, entry.nonce = nonce := by
  rw [coherent.listed, nonces, List.mem_toFinset, List.mem_map]

/-- The expiry keeps exactly the nonces of the survivors. -/
theorem Tidy.mem_dropExpired (tidy : Tidy limit clock cache) {cut : Int} {nonce : Nonce} :
    nonce ∈ (cache.dropExpired cut).redeemedNonces ↔
      ∃ entry ∈ cache.survivors cut, entry.nonce = nonce := by
  rw [tidy.dropExpired_listed, nonces, List.mem_toFinset, List.mem_map]

end NonceCache

namespace TokenAuthenticator

section Runs

variable [CryptoBackend] {config : TokenAuthenticatorConfig} {history : List ((Nat × Call) × Answer)}
  {authenticator : TokenAuthenticator}

/-- In every reached state the set holds exactly the nonces of the queue, the queue holds each nonce
once and in the order of the times, and the limit holds. -/
theorem cache_representation
    (runs : machine.Runs Machine.clocked (create config) history authenticator) :
    authenticator.cache.redeemedNonces =
        (authenticator.cache.nonceEntries.map NonceEntry.nonce).toFinset ∧
      (authenticator.cache.nonceEntries.map NonceEntry.nonce).Nodup ∧
      authenticator.cache.nonceEntries.Pairwise (fun entry later => entry.timestamp ≤ later.timestamp) ∧
      authenticator.cache.redeemedNonces.card ≤ maxSize config := by
  obtain ⟨now, clocked⟩ := Machine.exists_latest history
  obtain ⟨⟨listed, distinct⟩, sorted, -, small⟩ := (tidy_of_runs runs).cache now clocked
  exact ⟨listed, distinct, sorted, small⟩

/-- In every reached state a pruning forgets exactly the nonces that are older than a window that
fits. -/
theorem pruneRedemptionCache_forgets
    (runs : machine.Runs Machine.clocked (create config) history authenticator)
    (fits : NonceCache.WindowFits config.replayWindow) (positive : 0 ≤ config.replayWindow) {now : Nat}
    (clocked : ∀ past ∈ history, past.1.1 ≤ now) (ticks : now < 2 ^ 63) (token : Token) :
    (authenticator.pruneRedemptionCache now).wouldBeReplay token = true ↔
      authenticator.IsUnexpired now token := by
  obtain ⟨configured, tidy⟩ := tidy_of_runs runs
  rw [wouldBeReplay, decide_eq_true_eq, IsUnexpired, unexpired, configured,
    ← NonceCache.survivors_of_fits fits positive ticks, ← configured]
  exact (tidy now clocked).mem_dropExpired

end Runs

/-- This is the cache of the run that marks two tokens. -/
def fullCache : NonceCache := @TokenAuthenticator.cache zeroBackend fullAuthenticator

theorem fullCache_representation :
    fullCache.redeemedNonces = (fullCache.nonceEntries.map NonceEntry.nonce).toFinset ∧
      (fullCache.nonceEntries.map NonceEntry.nonce).Nodup ∧
      fullCache.nonceEntries.Pairwise (fun entry later => entry.timestamp ≤ later.timestamp) ∧
      fullCache.redeemedNonces.card ≤ maxSize smallConfig :=
  @cache_representation zeroBackend smallConfig markedHistory fullAuthenticator markedHistory_runs

end TokenAuthenticator
end PrivacyPass
