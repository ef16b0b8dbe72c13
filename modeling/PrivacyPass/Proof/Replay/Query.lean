import PrivacyPass.Proof.Origin.Verify
import PrivacyPass.Proof.Replay.Cache

/-
This file proves when the replay query agrees with the replay check.
-/

namespace PrivacyPass

open Library Crypto

namespace ReplayCache

/-- The nonces that are recorded at the tick or later. -/
def recordedSince (cache : ReplayCache) (tick : Nat) : Finset Nonce :=
  cache.allNonces.filter fun nonce => ∃ time ∈ cache.bucketOrder, tick ≤ time ∧ nonce ∈ cache.bucket time

/-- The clock has not passed the window once, or the nonce is recorded at a tick within the window
and no more nonces than the size are recorded since. -/
def Outlives (cache : ReplayCache) (now : Nat) (nonce : Nonce) : Prop :=
  now < cache.windowSeconds ∨ ∃ tick ∈ cache.bucketOrder, nonce ∈ cache.bucket tick ∧
    now < tick + cache.windowSeconds ∧ (cache.recordedSince tick).card ≤ cache.maxSize

instance (cache : ReplayCache) (now : Nat) (nonce : Nonce) : Decidable (cache.Outlives now nonce) :=
  inferInstanceAs (Decidable (_ ∨ _))

section Pruning

variable {cache : ReplayCache} {entries : Finset (Nat × Nonce)} {now : Nat} {nonce : Nonce}

theorem Represents.mem_recordedSince (represents : Represents cache entries) {tick : Nat} :
    nonce ∈ cache.recordedSince tick ↔ ∃ time, (time, nonce) ∈ entries ∧ tick ≤ time := by
  rw [recordedSince, Finset.mem_filter]
  constructor
  · intro ⟨_, time, _, late, member⟩
    exact ⟨time, (represents.stored time nonce).mpr member, late⟩
  · intro ⟨time, member, late⟩
    refine ⟨?_, time, represents.tick_mem member, late, (represents.stored time nonce).mp member⟩
    rw [represents.known]
    exact Finset.mem_image_of_mem Prod.snd member

/-- The nonces since a tick are as many as the entries since the tick. -/
theorem Represents.card_recordedSince (represents : Represents cache entries) (tick : Nat) :
    (cache.recordedSince tick).card = (TimedSet.since tick entries).card := by
  have timed := represents.timed.subset (Finset.filter_subset (fun entry => tick ≤ entry.1) entries)
  rw [TimedSet.since, ← timed.card_image]
  congr 1
  ext nonce
  rw [represents.mem_recordedSince, Finset.mem_image]
  constructor
  · rintro ⟨time, member, late⟩
    exact ⟨(time, nonce), Finset.mem_filter.mpr ⟨member, late⟩, rfl⟩
  · rintro ⟨entry, member, rfl⟩
    exact ⟨entry.1, Finset.mem_filter.mp member⟩

/-- A recorded nonce survives the pruning exactly when it outlives the clock. -/
theorem Represents.mem_pruneExpired (represents : Represents cache entries)
    (recorded : nonce ∈ cache.allNonces) :
    nonce ∈ (cache.pruneExpired now).allNonces ↔ cache.Outlives now nonce := by
  rw [represents.known, Finset.mem_image] at recorded
  obtain ⟨entry, member, rfl⟩ := recorded
  have only : ∀ time, (time, entry.2) ∈ entries → time = entry.1 := fun time other =>
    congrArg Prod.fst (represents.timed _ other _ member rfl)
  have kept : entry.2 ∈ (cache.pruneExpired now).allNonces ↔
      entry ∈ TimedSet.prune cache.limits now entries := by
    rw [(pruneExpired_represents represents now).known, Finset.mem_image]
    constructor
    · intro ⟨other, inside, same⟩
      rwa [represents.timed _ (TimedSet.prune_subset inside) _ member same] at inside
    · intro inside
      exact ⟨entry, inside, rfl⟩
  rw [kept, TimedSet.mem_prune_iff, ← represents.card_recordedSince]
  change entry ∈ entries ∧ (now < cache.windowSeconds ∨ _) ↔ now < cache.windowSeconds ∨ _
  rw [and_iff_right member]
  apply or_congr_right
  constructor
  · intro ⟨young, fits⟩
    exact ⟨entry.1, represents.tick_mem member, (represents.stored _ _).mp member, young, fits⟩
  · intro ⟨tick, _, held, young, fits⟩
    rw [only tick ((represents.stored _ _).mpr held)] at young fits
    exact ⟨young, fits⟩

/-- A pruning records nothing. -/
theorem Represents.pruneExpired_subset (represents : Represents cache entries) :
    (cache.pruneExpired now).allNonces ⊆ cache.allNonces := by
  rw [(pruneExpired_represents represents now).known, represents.known]
  exact Finset.image_subset_image TimedSet.prune_subset

end Pruning

section Runs

variable {windowSeconds maxSize : Nat} {history : List ((Nat × Call) × Answer)} {cache : ReplayCache}

/-- In every reachable cache the query agrees with the check exactly when the nonce is not recorded
or outlives the clock, and a private origin asks this query. -/
theorem contains_agrees_iff
    (runs : machine.Runs Machine.clocked { windowSeconds := windowSeconds, maxSize := maxSize }
      history cache) (now : Nat) (nonce : Nonce) :
    ((cache.contains nonce = true ↔ (cache.checkAndAdd now nonce).1 = false) ↔
      (nonce ∈ cache.allNonces → cache.Outlives now nonce)) ∧
    ∀ [EcBackend] (origin : PrivateOrigin) (token : Token), origin.replayCache = cache →
      ((origin.wouldBeReplay token = true ↔
          (origin.replayCache.checkAndAdd now token.nonce).1 = false) ↔
        (token.nonce ∈ cache.allNonces → cache.Outlives now token.nonce)) := by
  obtain ⟨entries, -, -, represents, -⟩ := runs_refine runs
  have agrees (nonce : Nonce) : (cache.contains nonce = true ↔ (cache.checkAndAdd now nonce).1 = false) ↔
      (nonce ∈ cache.allNonces → cache.Outlives now nonce) := by
    rw [contains, decide_eq_true_eq, checkAndAdd_eq_false]
    constructor
    · intro same recorded
      exact (represents.mem_pruneExpired recorded).mp (same.mp recorded)
    · intro outlives
      constructor
      · intro recorded
        exact (represents.mem_pruneExpired recorded).mpr (outlives recorded)
      · exact fun kept => represents.pruneExpired_subset kept
  refine ⟨agrees nonce, ?_⟩
  rintro _ origin token rfl
  exact agrees token.nonce

end Runs

section Instances

/-- A cache with a window of one second records a nonce in its first second. -/
def secondCache : ReplayCache :=
  ({ windowSeconds := 1, maxSize := 10 : ReplayCache }.checkAndAdd 0 firstNonce).2

theorem secondCache_runs : machine.Runs Machine.clocked { windowSeconds := 1, maxSize := 10 }
    [((0, .checkAndAdd firstNonce), .flag true)] secondCache :=
  Machine.Runs.step (0, TimedSet.Call.checkAndAdd firstNonce) .start (by simp [Machine.clocked])

/-- In the first second the query and the check agree on the nonce. -/
theorem contains_agrees_second :
    secondCache.contains firstNonce = true ↔ (secondCache.checkAndAdd 0 firstNonce).1 = false :=
  (contains_agrees_iff secondCache_runs 0 firstNonce).1.mpr fun _ => .inl (by decide)

/-- In the next second the query still finds the nonce, and the check accepts it again. -/
theorem contains_agrees_stale :
    ¬ ∀ (windowSeconds maxSize : Nat) (history : List ((Nat × Call) × Answer)) (cache : ReplayCache)
      (now : Nat) (nonce : Nonce),
      machine.Runs Machine.clocked { windowSeconds := windowSeconds, maxSize := maxSize }
        history cache →
      (∀ past ∈ history, past.1.1 ≤ now) →
      (cache.contains nonce = true ↔ (cache.checkAndAdd now nonce).1 = false) := by
  intro agree
  have stale := (agree 1 10 _ _ 1 firstNonce secondCache_runs (by simp)).mp (by decide)
  revert stale
  decide

end Instances

end ReplayCache
end PrivacyPass
