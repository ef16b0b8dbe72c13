import PrivacyPass.Proof.Authenticator.Redemption

/-
This file proves which nonces a redemption cache loses when a recorded nonce is marked again.
-/

namespace PrivacyPass

open Library Crypto

namespace NonceCache

/-- The entry has not expired at this time. -/
def Live (window : Int) (now : Nat) (entry : NonceEntry) : Prop :=
  (now : Int) - window * nanosPerSecond ≤ entry.timestamp

instance (window : Int) (now : Nat) (entry : NonceEntry) : Decidable (Live window now entry) :=
  inferInstanceAs (Decidable (_ ≤ _))

/-- These are the entries that have not expired, from the oldest one to the newest one. -/
def live (window : Int) (now : Nat) (cache : NonceCache) : List NonceEntry :=
  cache.nonceEntries.filter fun entry => decide (Live window now entry)

/-- These are the entries that the expiry keeps in a queue in the order of its times. -/
def survivors (cut : Int) (cache : NonceCache) : List NonceEntry :=
  cache.nonceEntries.filter fun entry => decide (cut ≤ entry.timestamp)

/-- The queue is in the order of its times, and it never outgrows the limit. -/
structure Tidy (limit clock : Nat) (cache : NonceCache) : Prop where
  coherent : cache.Coherent
  sorted : cache.nonceEntries.Pairwise fun entry later => entry.timestamp ≤ later.timestamp
  latest : ∀ entry ∈ cache.nonceEntries, entry.timestamp ≤ clock
  small : cache.redeemedNonces.card ≤ limit

section Loops

variable {limit clock now : Nat} {cache : NonceCache} {window : Int}

theorem tidy_empty : Tidy limit clock {} :=
  ⟨⟨rfl, List.nodup_nil⟩, List.Pairwise.nil, by simp, Nat.zero_le _⟩

theorem Tidy.mono (tidy : Tidy limit clock cache) (monotone : clock ≤ now) : Tidy limit now cache :=
  ⟨tidy.coherent, tidy.sorted, fun entry member => (tidy.latest entry member).trans monotone, tidy.small⟩

theorem Coherent.card (coherent : cache.Coherent) :
    cache.redeemedNonces.card = cache.nonceEntries.length := by
  rw [coherent.listed, nonces, List.toFinset_card_of_nodup coherent.distinct, List.length_map]

/-- A loop leaves the cache tidy. -/
theorem Tidy.dropEntries (tidy : Tidy limit clock cache)
    (condition : NonceEntry → Finset Nonce → Bool) :
    Tidy limit clock (dropEntries condition cache.nonceEntries cache.redeemedNonces) := by
  obtain ⟨front, queue, coherent, -⟩ := dropEntries_spec condition tidy.coherent.distinct
  rw [← tidy.coherent.listed] at queue coherent
  have kept := List.sublist_append_right front
    (NonceCache.dropEntries condition cache.nonceEntries cache.redeemedNonces).nonceEntries
  rw [← queue] at kept
  exact ⟨coherent, tidy.sorted.sublist kept, fun entry member => tidy.latest entry (kept.subset member),
    (Finset.card_le_card (dropEntries_subset _ _ _)).trans tidy.small⟩

theorem Tidy.expired (tidy : Tidy limit clock cache) (cut : Int) :
    Tidy limit clock (cache.dropExpired cut) := tidy.dropEntries _

/-- The loop over the times keeps the entries from the first young one on. -/
theorem dropEntries_dropWhile (old : NonceEntry → Bool) (entries : List NonceEntry)
    (redeemed : Finset Nonce) :
    (dropEntries (fun entry _ => old entry) entries redeemed).nonceEntries = entries.dropWhile old := by
  induction entries generalizing redeemed with
  | nil => rfl
  | cons entry rest ih =>
      rw [dropEntries, List.dropWhile_cons]
      split
      · exact ih _
      · rfl

/-- The expiry of a queue in the order of its times keeps exactly the entries from the cutoff on. -/
theorem Tidy.dropExpired (tidy : Tidy limit clock cache) (cut : Int) :
    (cache.dropExpired cut).nonceEntries = cache.survivors cut := by
  rw [NonceCache.dropExpired, dropEntries_dropWhile, survivors]
  have sorted := tidy.sorted
  generalize cache.nonceEntries = entries at sorted
  induction entries with
  | nil => rfl
  | cons entry rest ih =>
      obtain ⟨first, later⟩ := List.pairwise_cons.mp sorted
      by_cases young : cut ≤ entry.timestamp
      · have all : ∀ other ∈ entry :: rest, decide (cut ≤ (other.timestamp : Int)) = true := by
          intro other member
          rw [decide_eq_true_eq]
          rcases List.mem_cons.mp member with rfl | member
          · exact young
          · have order := first other member
            omega
        rw [List.filter_eq_self.mpr all, List.dropWhile_cons_of_neg]
        simpa using young
      · have expired : (entry.timestamp : Int) < cut := by omega
        rw [List.filter_cons_of_neg (by simpa using young),
          List.dropWhile_cons_of_pos (by simpa using expired)]
        exact ih later

/-- A window that fits has its exact start as the cutoff. -/
theorem cutoff_exact (fits : WindowFits window) (positive : 0 ≤ window) (ticks : now < 2 ^ 63) :
    cutoff now window = now - window * nanosPerSecond := by
  unfold WindowFits at fits
  have scaled : 0 ≤ window * nanosPerSecond := Int.mul_nonneg positive (by decide)
  rw [cutoff_eq, wrapCount, Int.bmod_eq_of_le (by omega) (by omega)]

/-- The live entries survive where the window fits. -/
theorem survivors_of_fits (fits : WindowFits window) (positive : 0 ≤ window) (ticks : now < 2 ^ 63)
    (cache : NonceCache) : cache.survivors (cutoff now window) = cache.live window now := by
  rw [survivors, live, cutoff_exact fits positive ticks]
  rfl

/-- Every entry is live where the window does not fit, as the clock has not counted that far. -/
theorem live_of_not_fits (long : ¬ WindowFits window) (ticks : now < 2 ^ 63) (cache : NonceCache) :
    cache.live window now = cache.nonceEntries := by
  refine List.filter_eq_self.mpr fun entry member => decide_eq_true ?_
  unfold WindowFits at long
  unfold Live
  omega

/-- The loop over the size stops below the limit. -/
theorem dropOldest_card_lt (positive : 0 < limit) (coherent : cache.Coherent) :
    (cache.dropOldest limit).redeemedNonces.card < limit := by
  have stops (entries : List NonceEntry) (redeemed : Finset Nonce)
      (empty : entries = [] → redeemed = ∅) (distinct : (entries.map NonceEntry.nonce).Nodup)
      (listed : redeemed = nonces entries) :
      (NonceCache.dropEntries (fun _ redeemed => redeemed.card ≥ limit) entries
        redeemed).redeemedNonces.card < limit := by
    induction entries generalizing redeemed with
    | nil =>
        rw [NonceCache.dropEntries, empty rfl]
        exact positive
    | cons entry rest ih =>
        rw [List.map_cons, List.nodup_cons] at distinct
        have left : redeemed.erase entry.nonce = nonces rest := by
          rw [listed, nonces, List.map_cons, List.toFinset_cons,
            Finset.erase_insert (by simpa using distinct.1)]
          rfl
        rw [NonceCache.dropEntries]
        split
        · refine ih _ ?_ distinct.2 left
          rintro rfl
          exact left
        · next below => simpa using below
  refine stops _ _ ?_ coherent.distinct coherent.listed
  intro none
  rw [coherent.listed, none]
  rfl

theorem dropOldest_of_lt (below : cache.redeemedNonces.card < limit) :
    cache.dropOldest limit = cache := by
  rw [dropOldest]
  cases shape : cache.nonceEntries with
  | nil =>
      rw [NonceCache.dropEntries, ← shape]
  | cons entry rest =>
      rw [NonceCache.dropEntries, if_neg (by simpa using below), ← shape]

/-- A full cache loses its oldest entry. -/
theorem dropOldest_of_full {front : NonceEntry} {rest : List NonceEntry} (coherent : cache.Coherent)
    (queue : cache.nonceEntries = front :: rest) (full : cache.redeemedNonces.card = limit) :
    cache.dropOldest limit = ⟨cache.redeemedNonces.erase front.nonce, rest⟩ := by
  have listed : front.nonce ∈ cache.redeemedNonces := by
    rw [coherent.listed, nonces, queue]
    simp
  have below : (cache.redeemedNonces.erase front.nonce).card < limit := by
    rw [← full]
    exact Finset.card_erase_lt_of_mem listed
  have rests := @dropOldest_of_lt limit ⟨cache.redeemedNonces.erase front.nonce, rest⟩ below
  rw [dropOldest, queue, NonceCache.dropEntries, if_pos (by simpa using full.ge)]
  exact rests

/-- Every nonce is recorded in a tidy cache. -/
theorem Tidy.checkAndAddNonce (tidy : Tidy limit clock cache) (positive : 0 < limit)
    (monotone : clock ≤ now) (window : Int) (nonce : Nonce) :
    Tidy limit now (cache.checkAndAddNonce window limit now nonce).2 := by
  have pruned : Tidy limit now (NonceCache.dropOldest limit (cache.dropExpired (cutoff now window))) :=
    ((tidy.expired _).dropEntries _).mono monotone
  have below := dropOldest_card_lt positive (tidy.expired (cutoff now window)).coherent
  unfold NonceCache.checkAndAddNonce
  dsimp only
  generalize NonceCache.dropOldest limit (cache.dropExpired (cutoff now window)) = cache at *
  split
  · exact pruned
  · next fresh =>
      refine ⟨pruned.coherent.insert fresh now, ?_, ?_, ?_⟩
      · refine List.pairwise_append.mpr ⟨pruned.sorted, List.pairwise_singleton _ _, ?_⟩
        intro entry member last single
        rw [List.mem_singleton.mp single]
        exact pruned.latest entry member
      · intro entry member
        rcases List.mem_append.mp member with member | single
        · exact pruned.latest entry member
        · rw [List.mem_singleton.mp single]
      · exact (Finset.card_insert_le _ _).trans below

end Loops

section Marking

variable {limit clock now : Nat} {cache : NonceCache} {window : Int} {nonce : Nonce}

/-- No call adds another nonce. -/
theorem checkAndAddNonce_subset :
    (cache.checkAndAddNonce window limit now nonce).2.redeemedNonces ⊆
      insert nonce (cache.dropExpired (cutoff now window)).redeemedNonces := by
  have fewer := dropEntries_subset (fun _ redeemed => redeemed.card ≥ limit)
    (cache.dropExpired (cutoff now window)).nonceEntries
    (cache.dropExpired (cutoff now window)).redeemedNonces
  unfold NonceCache.checkAndAddNonce
  dsimp only
  split
  · exact fewer.trans (Finset.subset_insert _ _)
  · exact Finset.insert_subset_insert _ fewer

/-- A marked survivor costs no survivor its record exactly when the cache has room for another nonce
or the marked one is the oldest. -/
theorem Tidy.survivors_keeps_iff (tidy : Tidy limit clock cache)
    (recorded : ∃ entry ∈ cache.survivors (cutoff now window), entry.nonce = nonce) :
    (∀ entry ∈ cache.survivors (cutoff now window),
        entry.nonce ∈ (cache.checkAndAddNonce window limit now nonce).2.redeemedNonces) ↔
      (cache.survivors (cutoff now window)).length < limit ∨
        ∃ oldest ∈ (cache.survivors (cutoff now window)).head?, oldest.nonce = nonce := by
  have pruned := tidy.expired (cutoff now window)
  have queue := tidy.dropExpired (cutoff now window)
  unfold NonceCache.checkAndAddNonce
  rw [← queue] at recorded ⊢
  dsimp only
  generalize cache.dropExpired (cutoff now window) = cache at *
  have listed (entry : NonceEntry) (member : entry ∈ cache.nonceEntries) :
      entry.nonce ∈ cache.redeemedNonces := by
    rw [pruned.coherent.listed, nonces, List.mem_toFinset]
    exact List.mem_map_of_mem member
  obtain ⟨own, ownMember, rfl⟩ := recorded
  by_cases below : cache.nonceEntries.length < limit
  · -- nothing is evicted
    rw [dropOldest_of_lt (by rw [pruned.coherent.card]; exact below), if_pos (listed own ownMember)]
    exact ⟨fun _ => .inl below, fun _ => listed⟩
  · cases shape : cache.nonceEntries with
    | nil =>
        rw [shape] at ownMember
        cases ownMember
    | cons front rest =>
        have full : cache.redeemedNonces.card = limit :=
          Nat.le_antisymm pruned.small (by rw [pruned.coherent.card]; exact Nat.le_of_not_lt below)
        rw [dropOldest_of_full pruned.coherent shape full]
        rw [shape] at below listed
        by_cases same : front.nonce = own.nonce
        · -- the nonce makes room for itself
          rw [same, if_neg (Finset.notMem_erase _ _)]
          refine ⟨fun _ => .inr ⟨front, rfl, same⟩, fun _ entry member => ?_⟩
          dsimp only
          rw [Finset.insert_erase (listed own (shape ▸ ownMember))]
          exact listed entry member
        · rw [if_pos (Finset.mem_erase.mpr ⟨Ne.symm same, listed own (shape ▸ ownMember)⟩)]
          constructor
          · intro kept
            exact absurd (kept front List.mem_cons_self) (Finset.notMem_erase _ _)
          · rintro (room | ⟨oldest, first, named⟩)
            · exact absurd room below
            · cases first
              exact absurd named same

/-- The expired cache lists the survivors. -/
theorem Tidy.dropExpired_listed (tidy : Tidy limit clock cache) (cut : Int) :
    (cache.dropExpired cut).redeemedNonces = nonces (cache.survivors cut) := by
  rw [← tidy.dropExpired cut]
  exact (tidy.expired cut).coherent.listed

/-- Another entry that is kept has survived the expiry. -/
theorem Tidy.survives_of_kept (tidy : Tidy limit clock cache) {entry : NonceEntry}
    (member : entry ∈ cache.nonceEntries) (other : entry.nonce ≠ nonce)
    (kept : entry.nonce ∈ (cache.checkAndAddNonce window limit now nonce).2.redeemedNonces) :
    cutoff now window ≤ entry.timestamp := by
  have left := Finset.mem_of_mem_insert_of_ne (checkAndAddNonce_subset kept) other
  rw [tidy.dropExpired_listed, nonces, List.mem_toFinset] at left
  obtain ⟨survivor, survives, named⟩ := List.mem_map.mp left
  obtain ⟨inside, late⟩ := List.mem_filter.mp survives
  obtain rfl := List.inj_on_of_nodup_map tidy.coherent.distinct inside member named
  exact of_decide_eq_true late

/-- A cache with room for the survivors and the marked nonce keeps them all. -/
theorem Tidy.keeps_survivors (tidy : Tidy limit clock cache)
    (room : (cache.survivors (cutoff now window)).length < limit) :
    (cache.checkAndAddNonce window limit now nonce).2.redeemedNonces =
      insert nonce (nonces (cache.survivors (cutoff now window))) := by
  have pruned := (tidy.expired (cutoff now window)).coherent
  unfold NonceCache.checkAndAddNonce
  dsimp only
  rw [dropOldest_of_lt (by rw [pruned.card, tidy.dropExpired]; exact room), ← tidy.dropExpired_listed]
  split
  · next recorded => exact (Finset.insert_eq_of_mem recorded).symm
  · rfl

/-- A marked nonce costs no other nonce its record exactly when the expiry spares the others and the
cache has room for another nonce or the marked one is the oldest. -/
theorem Tidy.entries_keeps_iff (tidy : Tidy limit clock cache)
    (recorded : ∃ entry ∈ cache.nonceEntries, entry.nonce = nonce) :
    (∀ entry ∈ cache.nonceEntries,
        entry.nonce ∈ (cache.checkAndAddNonce window limit now nonce).2.redeemedNonces) ↔
      (∀ entry ∈ cache.nonceEntries, entry.nonce ≠ nonce → cutoff now window ≤ entry.timestamp) ∧
        (cache.nonceEntries.length < limit ∨
          ∃ oldest ∈ cache.nonceEntries.head?, oldest.nonce = nonce) := by
  have length : cache.nonceEntries.length ≤ limit := tidy.coherent.card ▸ tidy.small
  by_cases spared : ∀ entry ∈ cache.nonceEntries, cutoff now window ≤ entry.timestamp
  · -- the expiry spares every entry
    have all : cache.survivors (cutoff now window) = cache.nonceEntries :=
      List.filter_eq_self.mpr fun entry member => decide_eq_true (spared entry member)
    have settled := tidy.survivors_keeps_iff (by rwa [all] : ∃ entry ∈ cache.survivors
      (cutoff now window), entry.nonce = nonce)
    rw [all] at settled
    rw [settled]
    exact ⟨fun room => ⟨fun entry member _ => spared entry member, room⟩, fun ⟨_, room⟩ => room⟩
  · -- the expiry takes the oldest entry, which may only be the marked one
    push Not at spared
    obtain ⟨early, among, expired⟩ := spared
    constructor
    · intro kept
      have others (entry : NonceEntry) (member : entry ∈ cache.nonceEntries)
          (other : entry.nonce ≠ nonce) : cutoff now window ≤ entry.timestamp :=
        tidy.survives_of_kept member other (kept entry member)
      refine ⟨others, .inr ?_⟩
      cases shape : cache.nonceEntries with
      | nil =>
          rw [shape] at among
          cases among
      | cons front rest =>
          refine ⟨front, rfl, ?_⟩
          by_contra other
          have late := others front (shape ▸ List.mem_cons_self) other
          have sorted := tidy.sorted
          rw [shape] at sorted among
          rcases List.mem_cons.mp among with rfl | behind
          · omega
          · have order := (List.pairwise_cons.mp sorted).1 early behind
            omega
    · rintro ⟨others, -⟩ entry member
      have fewer : (cache.survivors (cutoff now window)).length < cache.nonceEntries.length := by
        refine List.length_filter_lt_length_iff_exists.mpr ⟨early, among, ?_⟩
        simpa using expired
      rw [tidy.keeps_survivors (fewer.trans_le length)]
      by_cases own : entry.nonce = nonce
      · rw [own]
        exact Finset.mem_insert_self _ _
      · refine Finset.mem_insert_of_mem ?_
        rw [nonces, List.mem_toFinset]
        exact List.mem_map_of_mem
          (List.mem_filter.mpr ⟨member, decide_eq_true (others entry member own)⟩)

/-- A marked live nonce costs no live nonce its record exactly when the window fits, or the cutoff
still spares the other live entries, and the cache has room for another live nonce or the marked one
is the oldest. -/
theorem Tidy.live_keeps_iff (tidy : Tidy limit now cache) (ticks : now < 2 ^ 63)
    (recorded : ∃ entry ∈ cache.live window now, entry.nonce = nonce) :
    (∀ entry ∈ cache.live window now,
        entry.nonce ∈ (cache.checkAndAddNonce window limit now nonce).2.redeemedNonces) ↔
      (WindowFits window ∨
          ∀ entry ∈ cache.live window now, entry.nonce ≠ nonce → cutoff now window ≤ entry.timestamp) ∧
        ((cache.live window now).length < limit ∨
          ∃ oldest ∈ (cache.live window now).head?, oldest.nonce = nonce) := by
  by_cases fits : WindowFits window
  · have positive : 0 ≤ window := by
      obtain ⟨own, member, -⟩ := recorded
      obtain ⟨inside, young⟩ := List.mem_filter.mp member
      have latest := tidy.latest own inside
      have young := of_decide_eq_true young
      unfold Live nanosPerSecond at young
      omega
    rw [← survivors_of_fits fits positive ticks] at recorded ⊢
    rw [tidy.survivors_keeps_iff recorded]
    exact ⟨fun room => ⟨.inl fits, room⟩, fun ⟨_, room⟩ => room⟩
  · rw [live_of_not_fits fits ticks] at recorded ⊢
    rw [tidy.entries_keeps_iff recorded, or_iff_right fits]

end Marking

end NonceCache

namespace TokenAuthenticator

theorem maxSize_pos (config : TokenAuthenticatorConfig) : 0 < maxSize config := by
  unfold maxSize
  split
  · assumption
  · decide

section Runs

variable [CryptoBackend] {config : TokenAuthenticatorConfig} {history : List ((Nat × Call) × Answer)}
  {authenticator : TokenAuthenticator}

/-- The authenticator keeps its configuration, and its cache stays tidy at every later time. -/
structure Tidy (config : TokenAuthenticatorConfig) (history : List ((Nat × Call) × Answer))
    (authenticator : TokenAuthenticator) : Prop where
  configured : authenticator.config = config
  cache : ∀ now, (∀ past ∈ history, past.1.1 ≤ now) →
    NonceCache.Tidy (maxSize config) now authenticator.cache

/-- A call that touches neither the configuration nor the cache leaves the authenticator tidy. -/
theorem Tidy.frame {moved : TokenAuthenticator} {event : (Nat × Call) × Answer}
    (tidy : Tidy config history authenticator) (configured : moved.config = authenticator.config)
    (cache : moved.cache = authenticator.cache) : Tidy config (history ++ [event]) moved where
  configured := configured.trans tidy.configured
  cache now clocked := by
    rw [cache]
    exact tidy.cache now fun past member => clocked past (List.mem_append_left _ member)

theorem Tidy.checkAndAddNonce (tidy : Tidy config history authenticator) {now : Nat}
    (clocked : ∀ past ∈ history, past.1.1 ≤ now) (nonce : Nonce) (call : Call) (answer : Answer) :
    Tidy config (history ++ [((now, call), answer)]) (authenticator.checkAndAddNonce now nonce).2 where
  configured := tidy.configured
  cache later after := by
    have monotone := after ((now, call), answer) (List.mem_append_right _ (List.mem_singleton.mpr rfl))
    have added := (tidy.cache now clocked).checkAndAddNonce (maxSize_pos config) (Nat.le_refl now)
      config.replayWindow nonce
    rw [TokenAuthenticator.checkAndAddNonce, tidy.configured]
    exact added.mono monotone

/-- Each call leaves the authenticator tidy. -/
theorem Tidy.step {input : Nat × Call} (tidy : Tidy config history authenticator)
    (clocked : ∀ past ∈ history, past.1.1 ≤ input.1) :
    Tidy config (history ++ [(input, (machine.step authenticator input).1)])
      (machine.step authenticator input).2 := by
  rcases input with ⟨now, call⟩
  cases call with
  | addTrustedKey issuer key => exact tidy.frame rfl rfl
  | addTrustedVoprfKey issuer key => exact tidy.frame rfl rfl
  | removeTrustedIssuer issuer => exact tidy.frame rfl rfl
  | isTrusted issuer => exact tidy.frame rfl rfl
  | validate token challenge => exact tidy.frame rfl rfl
  | wouldBeReplay token => exact tidy.frame rfl rfl
  | redemptionCacheSize => exact tidy.frame rfl rfl
  | markRedeemed token => exact tidy.checkAndAddNonce clocked token.nonce _ _
  | validateAndRedeem token challenge =>
      cases outcome : (authenticator.validateAndRedeem now token challenge).1.valid with
      | true =>
          have moved := tidy.checkAndAddNonce clocked token.nonce (.validateAndRedeem token challenge)
            (.result (authenticator.validateAndRedeem now token challenge).1)
          rw [← (validateAndRedeem_valid outcome).2] at moved
          exact moved
      | false =>
          have same := validateAndRedeem_invalid outcome
          exact tidy.frame (congrArg TokenAuthenticator.config same) (congrArg TokenAuthenticator.cache same)
  | pruneRedemptionCache =>
      refine ⟨tidy.configured, fun later after => ?_⟩
      exact (tidy.cache later fun past member => after past (List.mem_append_left _ member)).dropEntries _

theorem tidy_of_runs (runs : machine.Runs Machine.clocked (create config) history authenticator) :
    Tidy config history authenticator :=
  runs.invariant ⟨rfl, fun _ _ => NonceCache.tidy_empty⟩ fun _ _ _ tidy clocked => tidy.step clocked

/-- These are the recorded nonces that are not older than the replay window, oldest first. -/
def unexpired (authenticator : TokenAuthenticator) (now : Nat) : List NonceEntry :=
  authenticator.cache.live authenticator.config.replayWindow now

/-- The nonce of the token is recorded and not older than the replay window. -/
def IsUnexpired (authenticator : TokenAuthenticator) (now : Nat) (token : Token) : Prop :=
  ∃ entry ∈ authenticator.unexpired now, entry.nonce = token.nonce

/-- A token that is marked again costs no unexpired token its record exactly when the window fits, or
its wrapped start still spares the other unexpired nonces, and fewer nonces than the limit are
unexpired or the token's own nonce is the oldest of them. -/
theorem markRedeemed_keeps_iff
    (runs : machine.Runs Machine.clocked (create config) history authenticator) {now : Nat}
    (clocked : ∀ past ∈ history, past.1.1 ≤ now) (ticks : now < 2 ^ 63) {token : Token}
    (recorded : authenticator.IsUnexpired now token) :
    (∀ other : Token, authenticator.wouldBeReplay other = true → authenticator.IsUnexpired now other →
        (authenticator.markRedeemed now token).wouldBeReplay other = true) ↔
      (NonceCache.WindowFits config.replayWindow ∨ ∀ entry ∈ authenticator.unexpired now,
          entry.nonce ≠ token.nonce →
            (now - config.replayWindow * nanosPerSecond).bmod (2 ^ 64) ≤ entry.timestamp) ∧
        ((authenticator.unexpired now).length < maxSize config ∨
          ∃ oldest ∈ (authenticator.unexpired now).head?, oldest.nonce = token.nonce) := by
  obtain ⟨configured, tidy⟩ := tidy_of_runs runs
  have held := tidy now clocked
  have start : NonceCache.cutoff now config.replayWindow =
      (now - config.replayWindow * nanosPerSecond).bmod (2 ^ 64) := NonceCache.cutoff_eq _ _
  unfold IsUnexpired unexpired at recorded ⊢
  rw [configured] at recorded ⊢
  rw [← start, ← held.live_keeps_iff ticks recorded]
  have marked (nonce : Nonce) :
      nonce ∈ (authenticator.markRedeemed now token).cache.redeemedNonces ↔
        nonce ∈ (authenticator.cache.checkAndAddNonce config.replayWindow (maxSize config) now
          token.nonce).2.redeemedNonces := by
    rw [markRedeemed, checkAndAddNonce, configured]
  constructor
  · intro kept entry member
    have listed : entry.nonce ∈ authenticator.cache.redeemedNonces := by
      rw [held.coherent.listed, NonceCache.nonces, List.mem_toFinset]
      exact List.mem_map_of_mem (List.mem_of_mem_filter member)
    have still := kept { token with nonce := entry.nonce } (decide_eq_true listed) ⟨entry, member, rfl⟩
    exact (marked entry.nonce).mp (of_decide_eq_true still)
  · rintro kept other - ⟨entry, member, same⟩
    rw [wouldBeReplay, decide_eq_true_eq, marked, ← same]
    exact kept entry member

end Runs

section Instances

def smallConfig : TokenAuthenticatorConfig :=
  { issuerName := [0x69], originNames := [], maxReplayCacheSize := 2 }

/-- This token has another nonce than the token of zeros. -/
def nextToken : Token := { zeroToken with nonce := ⟨1 :: List.replicate 31 0, rfl⟩ }

def markedHistory : List ((Nat × @Call zeroBackend) × Answer) :=
  [((0, @Call.markRedeemed zeroBackend zeroToken), .done)] ++
    [((0, @Call.markRedeemed zeroBackend nextToken), .done)]

/-- Both tokens are marked, and the cache is full. -/
def fullAuthenticator : @TokenAuthenticator zeroBackend :=
  @markRedeemed zeroBackend
    (@markRedeemed zeroBackend (@create zeroBackend smallConfig) 0 zeroToken) 0 nextToken

theorem markedHistory_runs : (@machine zeroBackend).Runs Machine.clocked
    (@create zeroBackend smallConfig) markedHistory fullAuthenticator := by
  have first := (Machine.Runs.start : (@machine zeroBackend).Runs Machine.clocked
    (@create zeroBackend smallConfig) [] _).step (0, @Call.markRedeemed zeroBackend zeroToken)
      (by simp [Machine.clocked])
  exact first.step (0, @Call.markRedeemed zeroBackend nextToken) (by simp [Machine.clocked])

theorem fullAuthenticator_unexpired : @unexpired zeroBackend fullAuthenticator 0 =
    [⟨zeroToken.nonce, 0⟩, ⟨nextToken.nonce, 0⟩] := by decide +kernel

theorem fullAuthenticator_zero : @IsUnexpired zeroBackend fullAuthenticator 0 zeroToken := by
  unfold IsUnexpired
  rw [fullAuthenticator_unexpired]
  exact ⟨_, List.mem_cons_self, rfl⟩

theorem fullAuthenticator_next : @IsUnexpired zeroBackend fullAuthenticator 0 nextToken := by
  unfold IsUnexpired
  rw [fullAuthenticator_unexpired]
  exact ⟨_, List.mem_cons_of_mem _ List.mem_cons_self, rfl⟩

/-- The first token is the oldest one, and marking it again keeps the second one. -/
theorem markRedeemed_keeps_oldest :
    @wouldBeReplay zeroBackend (@markRedeemed zeroBackend fullAuthenticator 0 zeroToken) nextToken =
      true := by
  have kept := @markRedeemed_keeps_iff zeroBackend smallConfig markedHistory fullAuthenticator
    markedHistory_runs 0 (by simp [markedHistory]) (by decide) zeroToken fullAuthenticator_zero
  refine kept.mpr ⟨.inl (by decide), .inr ?_⟩ nextToken (by decide +kernel) fullAuthenticator_next
  rw [fullAuthenticator_unexpired]
  exact ⟨_, rfl, rfl⟩

/-- The second token evicts the first one when it is marked again. -/
theorem markRedeemed_keeps_not :
    ¬ ∀ (config : TokenAuthenticatorConfig) (history : List ((Nat × @Call zeroBackend) × Answer))
      (authenticator : @TokenAuthenticator zeroBackend) (now : Nat) (token other : Token),
      (@machine zeroBackend).Runs Machine.clocked (@create zeroBackend config) history authenticator →
      (∀ past ∈ history, past.1.1 ≤ now) → @IsUnexpired zeroBackend authenticator now token →
      @wouldBeReplay zeroBackend authenticator other = true →
      @IsUnexpired zeroBackend authenticator now other →
      @wouldBeReplay zeroBackend (@markRedeemed zeroBackend authenticator now token) other = true := by
  intro always
  have kept := always smallConfig markedHistory fullAuthenticator 0 nextToken zeroToken
    markedHistory_runs (by simp [markedHistory]) fullAuthenticator_next (by decide +kernel)
    fullAuthenticator_zero
  exact absurd kept (by decide +kernel)

end Instances

end TokenAuthenticator
end PrivacyPass
