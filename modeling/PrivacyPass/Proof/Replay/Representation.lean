import PrivacyPass.Construction.ReplayCache

/-
This file proves that the bucketed replay cache refines a timed set of nonces.
-/

namespace PrivacyPass.ReplayCache

open Library

def limits (cache : ReplayCache) : TimedSet.Limits := ⟨cache.windowSeconds, cache.maxSize⟩

/-- The three containers of the cache together stand for one set of nonces with their ticks. -/
structure Represents (cache : ReplayCache) (entries : Finset (Nat × Nonce)) : Prop where
  ordered : cache.bucketOrder.Pairwise (· < ·)
  keyed : ∀ tick, tick ∈ cache.bucketOrder ↔ cache.bucket tick ≠ ∅
  stored : ∀ tick nonce, (tick, nonce) ∈ entries ↔ nonce ∈ cache.bucket tick
  known : cache.allNonces = entries.image Prod.snd
  timed : TimedSet.Timed entries

section Buckets

variable {cache : ReplayCache} {entries : Finset (Nat × Nonce)}

/-- Each nonce stands in a bucket of the order. -/
theorem Represents.tick_mem (represents : Represents cache entries) {entry : Nat × Nonce}
    (member : entry ∈ entries) : entry.1 ∈ cache.bucketOrder := by
  rw [represents.keyed]
  exact Finset.ne_empty_of_mem ((represents.stored entry.1 entry.2).mp member)

theorem Represents.card_known (represents : Represents cache entries) :
    cache.allNonces.card = entries.card := by
  rw [represents.known, represents.timed.card_image]

/-- A cache without a bucket holds nothing. -/
theorem Represents.eq_empty (represents : Represents cache entries) (order : cache.bucketOrder = []) :
    entries = ∅ := by
  apply Finset.eq_empty_of_forall_notMem
  intro entry member
  have inside := represents.tick_mem member
  rw [order] at inside
  cases inside

/-- The front bucket is the oldest one. -/
theorem Represents.front_le (represents : Represents cache entries) {front : Nat} {rest : List Nat}
    (order : cache.bucketOrder = front :: rest) {entry : Nat × Nonce} (member : entry ∈ entries) :
    front ≤ entry.1 := by
  have inside := represents.tick_mem member
  have ordered := represents.ordered
  rw [order] at inside ordered
  rcases List.mem_cons.mp inside with equal | later
  · exact Nat.le_of_eq equal.symm
  · exact Nat.le_of_lt ((List.pairwise_cons.mp ordered).1 _ later)

theorem bucket_erase (front tick : Nat) (nonces : Finset Nonce) (order : List Nat) :
    bucket { cache with
      allNonces := nonces, buckets := cache.buckets.erase front, bucketOrder := order } tick =
      if tick = front then ∅ else cache.bucket tick := by
  unfold bucket
  split
  · next equal => rw [equal, AList.lookup_erase, Option.getD_none]
  · next different => rw [AList.lookup_erase_ne different]

/-- A drop removes the front bucket and its nonces. -/
theorem dropFront_eq (represents : Represents cache entries) {front : Nat} {rest : List Nat}
    (order : cache.bucketOrder = front :: rest) :
    cache.dropFront = { cache with
      allNonces := cache.allNonces \ cache.bucket front
      buckets := cache.buckets.erase front
      bucketOrder := rest } := by
  have nonempty : cache.bucket front ≠ ∅ := (represents.keyed front).mp (by simp [order])
  cases found : cache.buckets.lookup front with
  | none => exact absurd (by rw [bucket, found]; rfl) nonempty
  | some nonces =>
      rw [dropFront, order]
      simp only [found, bucket, Option.getD_some]

/-- A drop removes exactly the nonces of the front tick. -/
theorem dropFront_represents (represents : Represents cache entries) {front : Nat} {rest : List Nat}
    (order : cache.bucketOrder = front :: rest) :
    Represents cache.dropFront (entries.filter fun entry => entry.1 ≠ front) := by
  have ordered := represents.ordered
  rw [order, List.pairwise_cons] at ordered
  rw [dropFront_eq represents order]
  refine ⟨ordered.2, ?_, ?_, ?_, represents.timed.subset (Finset.filter_subset _ _)⟩
  · intro tick
    rw [bucket_erase]
    split
    · next equal =>
        subst equal
        simpa using fun member => Nat.lt_irrefl tick (ordered.1 tick member)
    · next different =>
        rw [← represents.keyed, order, List.mem_cons]
        simp [different]
  · intro tick nonce
    rw [bucket_erase, Finset.mem_filter, represents.stored]
    split
    · next equal => simp [equal]
    · next different => simp [different]
  · ext nonce
    simp only [represents.known, Finset.mem_sdiff, Finset.mem_image, Finset.mem_filter,
      ← represents.stored]
    constructor
    · rintro ⟨⟨entry, member, rfl⟩, absent⟩
      refine ⟨entry, ⟨member, ?_⟩, rfl⟩
      rintro rfl
      exact absent member
    · rintro ⟨entry, ⟨member, different⟩, rfl⟩
      refine ⟨⟨entry, member, rfl⟩, fun other => different ?_⟩
      exact congrArg Prod.fst (represents.timed _ member _ other rfl)

theorem dropFront_limits (cache : ReplayCache) : cache.dropFront.limits = cache.limits := by
  unfold dropFront
  split
  · rfl
  · split <;> rfl

/-- What a drop of the front preserves is preserved by both loops. -/
theorem dropBuckets_keeps {keeps : ReplayCache → Prop}
    (front : ∀ cache, keeps cache → keeps cache.dropFront) (condition : ReplayCache → Nat → Bool)
    (order : List Nat) {cache : ReplayCache} (kept : keeps cache) :
    keeps (dropBuckets condition order cache) := by
  induction order generalizing cache with
  | nil => exact kept
  | cons _ rest ih =>
      rw [dropBuckets]
      split
      · exact ih (front cache kept)
      · exact kept

theorem dropBuckets_limits (condition : ReplayCache → Nat → Bool) (order : List Nat)
    (cache : ReplayCache) : (dropBuckets condition order cache).limits = cache.limits :=
  @dropBuckets_keeps (fun moved => moved.limits = cache.limits)
    (fun moved same => (dropFront_limits moved).trans same) condition order cache rfl

end Buckets

section Loops

/-- The first loop keeps exactly the nonces after the cutoff. -/
theorem dropExpired_represents {cache : ReplayCache} {entries : Finset (Nat × Nonce)}
    (represents : Represents cache entries) (cutoff : Nat) :
    Represents (dropExpired cutoff cache) (entries.filter fun entry => cutoff < entry.1) := by
  unfold dropExpired
  generalize order : cache.bucketOrder = ticks
  induction ticks generalizing cache entries with
  | nil =>
      obtain rfl := represents.eq_empty order
      exact represents
  | cons front rest ih =>
      rw [dropBuckets]
      split
      · next old =>
          rw [TimedSet.filter_after_oldest (of_decide_eq_true old)]
          exact ih (dropFront_represents represents order) (by rw [dropFront_eq represents order])
      · next young =>
          have all : entries.filter (fun entry => cutoff < entry.1) = entries := by
            rw [Finset.filter_eq_self]
            intro entry member
            have oldestFirst := represents.front_le order member
            simp only [decide_eq_true_eq] at young
            omega
          rwa [all]

/-- The second loop keeps exactly the latest nonces that fit the capacity. -/
theorem dropOversized_represents {cache : ReplayCache} {entries : Finset (Nat × Nonce)}
    (represents : Represents cache entries) :
    Represents (dropOversized cache) (TimedSet.latest cache.maxSize entries) := by
  unfold dropOversized
  generalize order : cache.bucketOrder = ticks
  induction ticks generalizing cache entries with
  | nil =>
      obtain rfl := represents.eq_empty order
      exact represents
  | cons front rest ih =>
      rw [dropBuckets]
      split
      · next oversized =>
          rw [decide_eq_true_eq, represents.card_known] at oversized
          have same : cache.dropFront.maxSize = cache.maxSize :=
            congrArg TimedSet.Limits.capacity (dropFront_limits cache)
          have oldest : ∀ entry ∈ entries, front ≤ entry.1 := fun _ => represents.front_le order
          rw [TimedSet.latest_filter_oldest oldest oversized, ← same]
          exact ih (dropFront_represents represents order) (by rw [dropFront_eq represents order])
      · next fits =>
          rw [decide_eq_true_eq, represents.card_known] at fits
          rwa [TimedSet.latest_eq_self (Nat.le_of_not_lt fits)]

theorem dropExpired_limits (cutoff : Nat) (cache : ReplayCache) :
    (dropExpired cutoff cache).limits = cache.limits := dropBuckets_limits _ _ _

theorem dropOversized_limits (cache : ReplayCache) : cache.dropOversized.limits = cache.limits :=
  dropBuckets_limits _ _ _

/-- The first loop of a pruning keeps exactly the live nonces. -/
theorem dropExpired_live {cache : ReplayCache} {entries : Finset (Nat × Nonce)}
    (represents : Represents cache entries) {now : Nat} (late : cache.windowSeconds ≤ now) :
    Represents (dropExpired (now - cache.windowSeconds) cache)
      (TimedSet.live now cache.windowSeconds entries) := by
  have live : TimedSet.live now cache.windowSeconds entries =
      entries.filter fun entry => now - cache.windowSeconds < entry.1 := by
    ext entry
    simp only [TimedSet.live, Finset.mem_filter]
    exact and_congr_right fun _ => by omega
  rw [live]
  exact dropExpired_represents represents (now - cache.windowSeconds)

/-- The pruning of the cache prunes the timed set. -/
theorem pruneExpired_represents {cache : ReplayCache} {entries : Finset (Nat × Nonce)}
    (represents : Represents cache entries) (now : Nat) :
    Represents (cache.pruneExpired now) (TimedSet.prune cache.limits now entries) := by
  unfold pruneExpired TimedSet.prune
  change Represents _ (if now < cache.windowSeconds then _ else _)
  split
  · exact represents
  · next late =>
      have oversized := dropOversized_represents (dropExpired_live represents (Nat.le_of_not_lt late))
      have capacity : (dropExpired (now - cache.windowSeconds) cache).maxSize = cache.maxSize :=
        congrArg TimedSet.Limits.capacity (dropExpired_limits _ cache)
      rw [capacity] at oversized
      exact oversized

theorem pruneExpired_limits (cache : ReplayCache) (now : Nat) :
    (cache.pruneExpired now).limits = cache.limits := by
  unfold pruneExpired
  split
  · rfl
  · rw [dropOversized_limits, dropExpired_limits]

end Loops

section Calls

variable {cache : ReplayCache} {entries : Finset (Nat × Nonce)}

theorem bucket_addToBucket (tick other : Nat) (nonce : Nonce) :
    (cache.addToBucket tick nonce).bucket other =
      if other = tick then insert nonce (cache.bucket tick) else cache.bucket other := by
  change ((cache.buckets.insert tick (insert nonce (cache.bucket tick))).lookup other).getD ∅ = _
  split
  · next equal => rw [equal, AList.lookup_insert, Option.getD_some]
  · next different => rw [AList.lookup_insert_ne different, bucket]

/-- A fresh nonce enters the bucket of the last tick. -/
theorem addToBucket_represents (represents : Represents cache entries) {tick : Nat} {nonce : Nonce}
    (fresh : nonce ∉ entries.image Prod.snd) (latest : ∀ entry ∈ entries, entry.1 ≤ tick) :
    Represents (cache.addToBucket tick nonce) (insert (tick, nonce) entries) := by
  have bounded : ∀ other ∈ cache.bucketOrder, other ≤ tick := by
    intro other member
    obtain ⟨held, inside⟩ := Finset.nonempty_of_ne_empty ((represents.keyed other).mp member)
    exact latest (other, held) ((represents.stored other held).mpr inside)
  refine ⟨?_, ?_, ?_, ?_, represents.timed.insert fresh⟩
  · change (if cache.bucket tick = ∅ then cache.bucketOrder ++ [tick]
      else cache.bucketOrder).Pairwise (· < ·)
    split
    · next empty =>
        refine List.pairwise_append.mpr ⟨represents.ordered, List.pairwise_singleton _ _, ?_⟩
        intro other member last inside
        rw [List.mem_singleton.mp inside]
        apply Nat.lt_of_le_of_ne (bounded other member)
        intro equal
        exact (represents.keyed other).mp member (equal ▸ empty)
    · exact represents.ordered
  · intro other
    rw [bucket_addToBucket]
    change other ∈ (if cache.bucket tick = ∅ then cache.bucketOrder ++ [tick]
      else cache.bucketOrder) ↔ _
    by_cases equal : other = tick
    · rw [if_pos equal]
      subst equal
      simp only [ne_eq, Finset.insert_ne_empty, not_false_eq_true, iff_true]
      split
      · simp
      · next nonempty => exact (represents.keyed other).mpr nonempty
    · rw [if_neg equal, ← represents.keyed]
      split
      · simp [equal]
      · rfl
  · intro other held
    rw [bucket_addToBucket, Finset.mem_insert, represents.stored, Prod.mk.injEq]
    by_cases equal : other = tick
    · subst equal
      simp
    · simp [equal]
  · change insert nonce cache.allNonces = _
    rw [represents.known, Finset.image_insert]

theorem checkAndAdd_of_known {tick : Nat} {nonce : Nonce}
    (known : nonce ∈ (cache.pruneExpired tick).allNonces) :
    cache.checkAndAdd tick nonce = (false, cache.pruneExpired tick) := by
  rw [checkAndAdd]
  exact if_pos known

theorem checkAndAdd_of_fresh {tick : Nat} {nonce : Nonce}
    (fresh : nonce ∉ (cache.pruneExpired tick).allNonces) :
    cache.checkAndAdd tick nonce = (true, (cache.pruneExpired tick).addToBucket tick nonce) := by
  rw [checkAndAdd]
  exact if_neg fresh

theorem checkAndAdd_eq_false {tick : Nat} {nonce : Nonce} :
    (cache.checkAndAdd tick nonce).1 = false ↔ nonce ∈ (cache.pruneExpired tick).allNonces := by
  by_cases known : nonce ∈ (cache.pruneExpired tick).allNonces
  · simp [checkAndAdd_of_known, known]
  · simp [checkAndAdd_of_fresh, known]

/-- A call with a fresh or a known nonce moves the cache as it moves the timed set. -/
theorem checkAndAdd_represents (represents : Represents cache entries) {tick : Nat} (nonce : Nonce)
    (latest : ∀ entry ∈ entries, entry.1 ≤ tick) :
    (cache.checkAndAdd tick nonce).1 = (TimedSet.accept cache.limits tick nonce entries).1 ∧
      Represents (cache.checkAndAdd tick nonce).2
        (TimedSet.accept cache.limits tick nonce entries).2 := by
  have pruned := pruneExpired_represents represents tick
  by_cases known : nonce ∈ (cache.pruneExpired tick).allNonces
  · rw [checkAndAdd_of_known known, TimedSet.accept, if_pos (pruned.known ▸ known)]
    exact ⟨rfl, pruned⟩
  · rw [checkAndAdd_of_fresh known, TimedSet.accept, if_neg (pruned.known ▸ known)]
    exact ⟨rfl, addToBucket_represents pruned (pruned.known ▸ known) fun entry member =>
      latest entry (TimedSet.prune_subset member)⟩

theorem checkAndAdd_limits (cache : ReplayCache) (tick : Nat) (nonce : Nonce) :
    (cache.checkAndAdd tick nonce).2.limits = cache.limits := by
  by_cases known : nonce ∈ (cache.pruneExpired tick).allNonces
  · rw [checkAndAdd_of_known known]
    exact pruneExpired_limits cache tick
  · rw [checkAndAdd_of_fresh known]
    exact pruneExpired_limits cache tick

end Calls

section Runs

/-- The state of a run represents a timed set, and no nonce is later than the clock. -/
structure Simulates (limits : TimedSet.Limits) (history : List ((Nat × Call) × Answer))
    (cache : ReplayCache) (entries : Finset (Nat × Nonce)) : Prop where
  limits : cache.limits = limits
  represents : Represents cache entries
  founded : TimedSet.Founded history entries

/-- An empty cache represents the empty timed set. -/
theorem empty_represents (windowSeconds maxSize : Nat) :
    Represents { windowSeconds := windowSeconds, maxSize := maxSize } ∅ := by
  refine ⟨List.Pairwise.nil, ?_, ?_, rfl, ?_⟩
  · intro tick
    simp [bucket]
  · intro tick nonce
    simp [bucket]
  · simp [TimedSet.Timed]

/-- Each call on the cache answers as the same call on the timed set. -/
theorem step_simulates {limits : TimedSet.Limits} {history : List ((Nat × Call) × Answer)}
    {cache : ReplayCache} {entries : Finset (Nat × Nonce)} {input : Nat × Call}
    (simulates : Simulates limits history cache entries) (legal : Machine.clocked history input) :
    (machine.step cache input).1 = ((TimedSet.machine limits).step entries input).1 ∧
      Simulates limits (history ++ [(input, (machine.step cache input).1)])
        (machine.step cache input).2 ((TimedSet.machine limits).step entries input).2 := by
  obtain ⟨rfl, represents, founded⟩ := simulates
  have latest := founded.latest legal
  have next : TimedSet.Founded (history ++ [(input,
      ((TimedSet.machine cache.limits).step entries input).1)])
      ((TimedSet.machine cache.limits).step entries input).2 := founded.step input
  suffices answers : (machine.step cache input).1 =
      ((TimedSet.machine cache.limits).step entries input).1 ∧
      (machine.step cache input).2.limits = cache.limits ∧
      Represents (machine.step cache input).2 ((TimedSet.machine cache.limits).step entries input).2 by
    obtain ⟨equal, limits, represents⟩ := answers
    exact ⟨equal, limits, represents, by rwa [equal]⟩
  rcases input with ⟨now, call⟩
  cases call with
  | checkAndAdd nonce =>
      obtain ⟨equal, moved⟩ := checkAndAdd_represents represents nonce latest
      exact ⟨congrArg TimedSet.Answer.flag equal, checkAndAdd_limits cache now nonce, moved⟩
  | contains nonce =>
      refine ⟨?_, rfl, represents⟩
      change TimedSet.Answer.flag (decide (nonce ∈ cache.allNonces)) = _
      rw [represents.known]
      rfl
  | size =>
      refine ⟨?_, rfl, represents⟩
      change TimedSet.Answer.count cache.allNonces.card = _
      rw [represents.known]
      rfl
  | prune => exact ⟨rfl, pruneExpired_limits cache now, pruneExpired_represents represents now⟩

/-- The replay cache refines the timed set over every run. -/
theorem runs_refine {windowSeconds maxSize : Nat} {history : List ((Nat × Call) × Answer)}
    {cache : ReplayCache}
    (runs : machine.Runs Machine.clocked { windowSeconds := windowSeconds, maxSize := maxSize }
      history cache) :
    ∃ entries, (TimedSet.machine ⟨windowSeconds, maxSize⟩).Runs Machine.clocked ∅ history entries ∧
      Simulates ⟨windowSeconds, maxSize⟩ history cache entries :=
  runs.simulate ⟨rfl, empty_represents _ _, ⟨by simp, by simp [TimedSet.Timed]⟩⟩
    fun _ _ _ _ simulates legal => step_simulates simulates legal

end Runs

end PrivacyPass.ReplayCache
