import PrivacyPass.Proof.Replay.Representation

/-
This file proves when the replay cache accepts a nonce, over every run of its calls.
-/

namespace PrivacyPass.ReplayCache

open Library

variable {windowSeconds maxSize : Nat} {history : List ((Nat × Call) × Answer)} {cache : ReplayCache}

/-- A cache that accepts no more nonces than its size refuses a nonce exactly when it has accepted
the nonce within the window before. -/
theorem checkAndAdd_eq_false_iff
    (runs : machine.Runs Machine.clocked { windowSeconds := windowSeconds, maxSize := maxSize }
      history cache)
    (few : (TimedSet.acceptedValues history).toFinset.card ≤ maxSize) {tick : Nat} {nonce : Nonce}
    (legal : ∀ past ∈ history, past.1.1 ≤ tick) :
    (cache.checkAndAdd tick nonce).1 = false ↔
      ∃ time, TimedSet.Accepted history time nonce ∧ tick < time + windowSeconds := by
  obtain ⟨entries, shadow, limits, represents, founded⟩ := runs_refine runs
  have latest := founded.latest legal
  rw [(checkAndAdd_represents represents nonce latest).1, limits]
  exact TimedSet.accept_eq_false_iff shadow few legal

/-- A cache that accepts no more nonces than its size contains each nonce within the window after
its acceptance. -/
theorem contains_of_accepted
    (runs : machine.Runs Machine.clocked { windowSeconds := windowSeconds, maxSize := maxSize }
      history cache)
    (few : (TimedSet.acceptedValues history).toFinset.card ≤ maxSize) {time tick : Nat} {nonce : Nonce}
    (accepted : TimedSet.Accepted history time nonce) (young : tick < time + windowSeconds)
    (legal : ∀ past ∈ history, past.1.1 ≤ tick) : cache.contains nonce = true := by
  obtain ⟨entries, shadow, limits, represents, founded⟩ := runs_refine runs
  rw [contains, decide_eq_true_eq, represents.known]
  rcases TimedSet.retained_of_runs shadow few time nonce accepted with member | ⟨past, earlier, passed⟩
  · exact Finset.mem_image.mpr ⟨_, member, rfl⟩
  · have late := legal past earlier
    change time + windowSeconds ≤ past.1.1 at passed
    omega

/-- The nonces of the last tick are the members of its bucket. -/
theorem Represents.since_card {entries : Finset (Nat × Nonce)}
    (represents : Represents cache entries) {tick : Nat}
    (latest : ∀ entry ∈ entries, entry.1 ≤ tick) :
    (TimedSet.since tick entries).card = (cache.bucket tick).card := by
  have exact : ∀ entry ∈ TimedSet.since tick entries, entry.1 = tick := by
    intro entry member
    obtain ⟨inside, recent⟩ := TimedSet.mem_since.mp member
    exact Nat.le_antisymm (latest entry inside) recent
  have image : (TimedSet.since tick entries).image Prod.snd = cache.bucket tick := by
    ext nonce
    rw [Finset.mem_image, ← represents.stored]
    constructor
    · rintro ⟨entry, member, rfl⟩
      rw [← exact entry member]
      exact (TimedSet.mem_since.mp member).1
    · intro member
      exact ⟨(tick, nonce), TimedSet.mem_since.mpr ⟨member, Nat.le_refl tick⟩, rfl⟩
  rw [← image]
  exact (represents.timed.subset (Finset.filter_subset _ _)).card_image.symm

/-- The call right after an acceptance refuses the nonce within the window, unless the clock has
passed the window once and the bucket of the nonce outgrows the cache. -/
theorem checkAndAdd_twice (wide : 1 ≤ windowSeconds) (room : 1 ≤ maxSize)
    (runs : machine.Runs Machine.clocked { windowSeconds := windowSeconds, maxSize := maxSize }
      history cache) {tick later : Nat} {nonce : Nonce}
    (legal : ∀ past ∈ history, past.1.1 ≤ tick) (accepted : (cache.checkAndAdd tick nonce).1 = true)
    (order : tick ≤ later) (young : later < tick + windowSeconds) :
    ((cache.checkAndAdd tick nonce).2.checkAndAdd later nonce).1 = false ↔
      ¬ (windowSeconds ≤ later ∧ maxSize ≤ (cache.bucket tick).card ∧
        (tick < windowSeconds ∨ (cache.bucket tick).card = maxSize)) := by
  obtain ⟨entries, -, limits, represents, founded⟩ := runs_refine runs
  have latest := founded.latest legal
  obtain ⟨answer, moved⟩ := checkAndAdd_represents represents nonce latest
  have movedLatest : ∀ entry ∈ (TimedSet.accept cache.limits tick nonce entries).2,
      entry.1 ≤ later := by
    intro entry member
    rw [(TimedSet.accept_of_true (answer ▸ accepted)).2] at member
    rcases Finset.mem_insert.mp member with rfl | member
    · exact order
    · exact (latest entry (TimedSet.prune_subset member)).trans order
  have accepts : (TimedSet.accept ⟨windowSeconds, maxSize⟩ tick nonce entries).1 = true := by
    rw [← limits, ← answer, accepted]
  have again := TimedSet.accept_twice latest wide room accepts young
  rw [(checkAndAdd_represents moved nonce movedLatest).1, checkAndAdd_limits, limits, again,
    represents.since_card latest]

/-- The state of a run represents a timed set that has lost no nonce within the window. -/
def KeepsWindow (limits : TimedSet.Limits) (history : List ((Nat × Call) × Answer))
    (cache : ReplayCache) : Prop :=
  ∃ entries, Simulates limits history cache entries ∧ TimedSet.Retained limits.window history entries

theorem keepsWindow_empty (windowSeconds maxSize : Nat) :
    KeepsWindow ⟨windowSeconds, maxSize⟩ []
      { windowSeconds := windowSeconds, maxSize := maxSize } := by
  refine ⟨∅, ⟨rfl, empty_represents _ _, ⟨by simp, by simp [TimedSet.Timed]⟩⟩, ?_⟩
  intro time nonce accepted
  cases accepted

/-- The cache keeps its size after every call exactly when each checked nonce was accepted within
the window before, or the nonces of the window are fewer than the size. -/
theorem size_le_iff
    (runs : machine.Runs Machine.clocked { windowSeconds := windowSeconds, maxSize := maxSize }
      history cache) :
    Machine.Always machine Machine.clocked { windowSeconds := windowSeconds, maxSize := maxSize }
        (fun cache => cache.size ≤ maxSize) history ↔
      Machine.Each (TimedSet.HasRoom ⟨windowSeconds, maxSize⟩) history := by
  refine @Machine.Runs.always_iff _ _ _ _ _ _ _ _ _ _ (KeepsWindow ⟨windowSeconds, maxSize⟩)
    (Nat.zero_le _) (keepsWindow_empty _ _) ?_ runs
  intro history cache input ⟨entries, simulates, retained⟩ small legal
  have fits : entries.card ≤ maxSize := by
    rw [← simulates.represents.card_known]
    exact small
  obtain ⟨answer, next⟩ := step_simulates simulates legal
  refine ⟨⟨_, next, ?_⟩, ?_⟩
  · rw [answer]
    exact retained.step (TimedSet.spares_of_fits fits input)
  · rw [← TimedSet.step_fits_iff simulates.founded retained fits legal,
      ← next.represents.card_known, size]

section Instances

def firstNonce : Nonce := FixedBytes.zero 32

def secondNonce : Nonce := ⟨1 :: List.replicate 31 0, by simp⟩

/-- A cache of size 1 accepts two nonces in one tick of its first window. -/
def crowdedCache : ReplayCache :=
  ({ windowSeconds := 2, maxSize := 1 : ReplayCache }.checkAndAdd 1 firstNonce).2

theorem crowdedCache_runs : machine.Runs Machine.clocked { windowSeconds := 2, maxSize := 1 }
    [((1, .checkAndAdd firstNonce), .flag true)] crowdedCache :=
  Machine.Runs.step (1, TimedSet.Call.checkAndAdd firstNonce) .start (by simp [Machine.clocked])

/-- A cache of size 1 that has passed its first window keeps two nonces of one tick. -/
theorem size_le_iff_full :
    ¬ ∀ (windowSeconds maxSize : Nat) (history : List ((Nat × Call) × Answer)) (cache : ReplayCache),
      1 ≤ maxSize → machine.Runs Machine.clocked
        { windowSeconds := windowSeconds, maxSize := maxSize } history cache →
      cache.size ≤ maxSize := by
  intro always
  have first : machine.Runs Machine.clocked { windowSeconds := 2, maxSize := 1 }
      [((3, .checkAndAdd firstNonce), .flag true)] _ :=
    Machine.Runs.step (3, TimedSet.Call.checkAndAdd firstNonce) .start (by simp [Machine.clocked])
  have second := first.step (3, .checkAndAdd secondNonce) (by simp [Machine.clocked])
  have small := always 2 1 _ _ (by decide) second
  revert small
  decide

/-- The crowded cache is within its size, and its one nonce found room. -/
theorem size_le_iff_crowded :
    Machine.Always machine Machine.clocked { windowSeconds := 2, maxSize := 1 }
        (fun cache => cache.size ≤ 1) [((1, .checkAndAdd firstNonce), .flag true)] ↔
      Machine.Each (TimedSet.HasRoom ⟨2, 1⟩) [((1, .checkAndAdd firstNonce), .flag true)] :=
  size_le_iff crowdedCache_runs

/-- The crowded cache accepts the second nonce twice in a row. -/
theorem checkAndAdd_twice_crowded :
    ¬ ∀ (windowSeconds maxSize : Nat) (history : List ((Nat × Call) × Answer)) (cache : ReplayCache)
      (tick later : Nat) (nonce : Nonce), 1 ≤ windowSeconds → 1 ≤ maxSize →
      machine.Runs Machine.clocked { windowSeconds := windowSeconds, maxSize := maxSize }
        history cache →
      (∀ past ∈ history, past.1.1 ≤ tick) → (cache.checkAndAdd tick nonce).1 = true →
      tick ≤ later → later < tick + windowSeconds →
      ((cache.checkAndAdd tick nonce).2.checkAndAdd later nonce).1 = false := by
  intro always
  have refused := always 2 1 _ crowdedCache 1 2 secondNonce (by decide) (by decide)
    crowdedCache_runs (by simp) (by decide) (by decide) (by decide)
  revert refused
  decide

/-- The condition of the immediate refusal holds for an empty cache. -/
theorem checkAndAdd_twice_empty :
    ((({ windowSeconds := 2, maxSize := 1 : ReplayCache }.checkAndAdd 3 firstNonce).2.checkAndAdd 4
        firstNonce).1 = false ↔
      ¬ (2 ≤ 4 ∧ 1 ≤ ({ windowSeconds := 2, maxSize := 1 : ReplayCache }.bucket 3).card ∧
        (3 < 2 ∨ ({ windowSeconds := 2, maxSize := 1 : ReplayCache }.bucket 3).card = 1))) :=
  have wide : 1 ≤ 2 := by decide
  checkAndAdd_twice wide (by decide) .start (by simp) (by decide) (by decide) (by decide)

/-- The crowded cache refuses its first nonce at the next tick. -/
theorem checkAndAdd_eq_false_iff_crowded :
    (crowdedCache.checkAndAdd 2 firstNonce).1 = false ↔
      ∃ time, TimedSet.Accepted [((1, .checkAndAdd firstNonce), .flag true)] time firstNonce ∧
        2 < time + 2 :=
  checkAndAdd_eq_false_iff crowdedCache_runs (by decide) (by simp)

end Instances

end PrivacyPass.ReplayCache
