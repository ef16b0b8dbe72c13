import PrivacyPass.Proof.Replay.Cache

/-
This file proves how the three containers of the replay cache belong together in every run.
-/

namespace PrivacyPass.ReplayCache

open Library

/-- No bucket of the cache is empty. -/
def Filled (cache : ReplayCache) : Prop :=
  ∀ tick nonces, cache.buckets.lookup tick = some nonces → nonces ≠ ∅

section Operations

variable {cache : ReplayCache}

/-- A drop removes a bucket and adds none. -/
theorem Filled.dropFront (filled : cache.Filled) : cache.dropFront.Filled := by
  unfold ReplayCache.dropFront
  split
  · exact filled
  · next front rest order =>
      split
      · intro tick nonces found
        change (cache.buckets.erase front).lookup tick = some nonces at found
        by_cases equal : tick = front
        · rw [equal, AList.lookup_erase] at found
          cases found
        · rw [AList.lookup_erase_ne equal] at found
          exact filled tick nonces found
      · exact filled

theorem Filled.dropBuckets (condition : ReplayCache → Nat → Bool) (order : List Nat)
    (filled : cache.Filled) : (dropBuckets condition order cache).Filled :=
  @dropBuckets_keeps Filled (fun _ => Filled.dropFront) condition order cache filled

theorem Filled.pruneExpired (filled : cache.Filled) (now : Nat) : (cache.pruneExpired now).Filled := by
  unfold ReplayCache.pruneExpired dropOversized dropExpired
  split
  · exact filled
  · exact (filled.dropBuckets _ _).dropBuckets _ _

/-- The bucket of the tick gets a nonce, and the others stay. -/
theorem Filled.addToBucket (filled : cache.Filled) (tick : Nat) (nonce : Nonce) :
    (cache.addToBucket tick nonce).Filled := by
  intro other nonces found
  change (cache.buckets.insert tick (insert nonce (cache.bucket tick))).lookup other = some nonces at found
  by_cases equal : other = tick
  · rw [equal, AList.lookup_insert] at found
    rw [← Option.some.inj found]
    exact Finset.insert_ne_empty _ _
  · rw [AList.lookup_insert_ne equal] at found
    exact filled other nonces found

theorem Filled.checkAndAdd (filled : cache.Filled) (tick : Nat) (nonce : Nonce) :
    (cache.checkAndAdd tick nonce).2.Filled := by
  by_cases known : nonce ∈ (cache.pruneExpired tick).allNonces
  · rw [checkAndAdd_of_known known]
    exact filled.pruneExpired tick
  · rw [checkAndAdd_of_fresh known]
    exact (filled.pruneExpired tick).addToBucket tick nonce

/-- Each call fills the buckets that it creates. -/
theorem Filled.step (filled : cache.Filled) (input : Nat × Call) :
    (machine.step cache input).2.Filled := by
  rcases input with ⟨now, call⟩
  cases call with
  | checkAndAdd nonce => exact filled.checkAndAdd now nonce
  | contains nonce => exact filled
  | size => exact filled
  | prune => exact filled.pruneExpired now

end Operations

section Buckets

variable {cache : ReplayCache} {entries : Finset (Nat × Nonce)} {tick : Nat} {nonces : Finset Nonce}

theorem bucket_of_lookup (found : cache.buckets.lookup tick = some nonces) :
    cache.bucket tick = nonces := by
  rw [bucket, found, Option.getD_some]

/-- The order lists exactly the ticks that have a bucket. -/
theorem Represents.mem_bucketOrder (represents : Represents cache entries) (filled : cache.Filled) :
    tick ∈ cache.bucketOrder ↔ tick ∈ cache.buckets := by
  rw [represents.keyed, ← AList.lookup_isSome, Option.isSome_iff_exists]
  constructor
  · intro nonempty
    cases found : cache.buckets.lookup tick with
    | none => exact absurd (by rw [bucket, found]; rfl) nonempty
    | some nonces => exact ⟨nonces, rfl⟩
  · rintro ⟨nonces, found⟩
    rw [bucket_of_lookup found]
    exact filled tick nonces found

/-- A nonce stands in one bucket only. -/
theorem Represents.disjoint (represents : Represents cache entries) {other : Nat}
    {others : Finset Nonce} (different : tick ≠ other)
    (found : cache.buckets.lookup tick = some nonces)
    (otherFound : cache.buckets.lookup other = some others) : Disjoint nonces others := by
  rw [Finset.disjoint_left]
  intro nonce member otherMember
  rw [← bucket_of_lookup found, ← represents.stored] at member
  rw [← bucket_of_lookup otherFound, ← represents.stored] at otherMember
  exact different (congrArg Prod.fst (represents.timed _ member _ otherMember rfl))

/-- The known nonces are those of the buckets. -/
theorem Represents.mem_allNonces (represents : Represents cache entries) {nonce : Nonce} :
    nonce ∈ cache.allNonces ↔
      ∃ tick nonces, cache.buckets.lookup tick = some nonces ∧ nonce ∈ nonces := by
  rw [represents.known, Finset.mem_image]
  constructor
  · rintro ⟨⟨tick, nonce⟩, member, rfl⟩
    rw [represents.stored] at member
    cases found : cache.buckets.lookup tick with
    | none =>
        rw [bucket, found] at member
        cases member
    | some nonces => exact ⟨tick, nonces, found, bucket_of_lookup found ▸ member⟩
  · rintro ⟨tick, nonces, found, member⟩
    rw [← bucket_of_lookup found, ← represents.stored] at member
    exact ⟨_, member, rfl⟩

end Buckets

section Runs

variable {windowSeconds maxSize : Nat} {history : List ((Nat × Call) × Answer)} {cache : ReplayCache}

/-- No bucket of a new cache is empty, and no call makes one empty. -/
theorem filled_of_runs
    (runs : machine.Runs Machine.clocked { windowSeconds := windowSeconds, maxSize := maxSize }
      history cache) : cache.Filled := by
  induction runs with
  | start =>
      intro tick nonces found
      cases found
  | step input before legal filled => exact filled.step input

/-- In every reached state the order is increasing and lists exactly the ticks of the buckets, each
bucket holds a nonce, no two buckets share one, and the buckets together hold the known nonces. -/
theorem buckets_representation
    (runs : machine.Runs Machine.clocked { windowSeconds := windowSeconds, maxSize := maxSize }
      history cache) :
    cache.bucketOrder.Pairwise (· < ·) ∧
      (∀ tick, tick ∈ cache.bucketOrder ↔ tick ∈ cache.buckets) ∧
      (∀ tick nonces, cache.buckets.lookup tick = some nonces → nonces ≠ ∅) ∧
      (∀ tick other nonces others, tick ≠ other → cache.buckets.lookup tick = some nonces →
        cache.buckets.lookup other = some others → Disjoint nonces others) ∧
      ∀ nonce, nonce ∈ cache.allNonces ↔
        ∃ tick nonces, cache.buckets.lookup tick = some nonces ∧ nonce ∈ nonces := by
  obtain ⟨entries, -, simulates⟩ := runs_refine runs
  have represents := simulates.represents
  have filled := filled_of_runs runs
  exact ⟨represents.ordered, fun tick => represents.mem_bucketOrder filled, filled,
    fun tick other nonces others different => represents.disjoint different,
    fun nonce => represents.mem_allNonces⟩

end Runs

section Instances

/-- A cache without room drops the bucket of the tick in the call that makes it again. -/
def remadeCache : ReplayCache :=
  (({ windowSeconds := 1, maxSize := 0 : ReplayCache }.checkAndAdd 1 firstNonce).2.checkAndAdd 1
    secondNonce).2

theorem remadeCache_runs : machine.Runs Machine.clocked { windowSeconds := 1, maxSize := 0 }
    ([((1, .checkAndAdd firstNonce), .flag true)] ++ [((1, .checkAndAdd secondNonce), .flag true)])
    remadeCache := by
  have first : machine.Runs Machine.clocked { windowSeconds := 1, maxSize := 0 }
      [((1, .checkAndAdd firstNonce), .flag true)] _ :=
    Machine.Runs.step (1, TimedSet.Call.checkAndAdd firstNonce) .start (by simp [Machine.clocked])
  exact first.next (by simp [Machine.clocked]) rfl

theorem remadeCache_representation :
    remadeCache.bucketOrder.Pairwise (· < ·) ∧
      (∀ tick, tick ∈ remadeCache.bucketOrder ↔ tick ∈ remadeCache.buckets) ∧
      (∀ tick nonces, remadeCache.buckets.lookup tick = some nonces → nonces ≠ ∅) ∧
      (∀ tick other nonces others, tick ≠ other → remadeCache.buckets.lookup tick = some nonces →
        remadeCache.buckets.lookup other = some others → Disjoint nonces others) ∧
      ∀ nonce, nonce ∈ remadeCache.allNonces ↔
        ∃ tick nonces, remadeCache.buckets.lookup tick = some nonces ∧ nonce ∈ nonces :=
  buckets_representation remadeCache_runs

end Instances

end PrivacyPass.ReplayCache
