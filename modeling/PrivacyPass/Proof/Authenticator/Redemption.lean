import PrivacyPass.Library.Queue
import PrivacyPass.Proof.Authenticator.Revocation

/-
This file proves how far apart two redemptions of one nonce lie.
-/

namespace PrivacyPass

open Library Crypto

namespace NonceCache

/-- The nanoseconds of the window fit a signed count of 64 bits. -/
def WindowFits (window : Int) : Prop := window * nanosPerSecond < 2 ^ 63

instance (window : Int) : Decidable (WindowFits window) := inferInstanceAs (Decidable (_ < _))

/-- The two conversions wrap around once. -/
theorem cutoff_eq (now : Nat) (window : Int) :
    cutoff now window = wrapCount (now - window * nanosPerSecond) := Int.sub_bmod_bmod

/-- A count that has not wrapped below the range does not grow. -/
theorem wrapCount_le {count : Int} (low : -2 ^ 63 ≤ count) : wrapCount count ≤ count := by
  rw [wrapCount, Int.bmod_def]
  split <;> omega

/-- A window that fits has no cutoff after its own start. -/
theorem cutoff_le {window : Int} (fits : WindowFits window) (now : Nat) :
    cutoff now window ≤ now - window * nanosPerSecond := by
  rw [cutoff_eq]
  refine wrapCount_le ?_
  unfold WindowFits at fits
  omega

/-- These are the keys of the queue. -/
def nonces (entries : List NonceEntry) : Finset Nonce := (entries.map NonceEntry.nonce).toFinset

/-- The set lists exactly the nonces of the queue, and the queue lists each of them once. -/
structure Coherent (cache : NonceCache) : Prop where
  listed : cache.redeemedNonces = nonces cache.nonceEntries
  distinct : (cache.nonceEntries.map NonceEntry.nonce).Nodup

/-- The dropped entries are a front part of the queue that met the condition, and the rest stays. -/
theorem dropEntries_spec (condition : NonceEntry → Finset Nonce → Bool) {entries : List NonceEntry}
    (distinct : (entries.map NonceEntry.nonce).Nodup) :
    ∃ front, entries = front ++ (dropEntries condition entries (nonces entries)).nonceEntries ∧
      (dropEntries condition entries (nonces entries)).Coherent ∧
      Trailed (fun entry later => condition entry (nonces (entry :: later)) = true) front
        (dropEntries condition entries (nonces entries)).nonceEntries := by
  induction entries with
  | nil => exact ⟨[], rfl, ⟨rfl, distinct⟩, trivial⟩
  | cons entry rest ih =>
      rw [List.map_cons, List.nodup_cons] at distinct
      unfold dropEntries
      split
      · next drop =>
          have left : (nonces (entry :: rest)).erase entry.nonce = nonces rest := by
            rw [nonces, List.map_cons, List.toFinset_cons, Finset.erase_insert (by simpa using distinct.1)]
            rfl
          rw [left]
          obtain ⟨front, split, coherent, trailed⟩ := ih distinct.2
          refine ⟨entry :: front, by rw [List.cons_append, ← split], coherent, ?_, trailed⟩
          rw [← split]
          exact drop
      · exact ⟨[], rfl, ⟨rfl, List.nodup_cons.mpr distinct⟩, trivial⟩

/-- No loop adds a nonce. -/
theorem dropEntries_subset (condition : NonceEntry → Finset Nonce → Bool)
    (entries : List NonceEntry) (redeemed : Finset Nonce) :
    (dropEntries condition entries redeemed).redeemedNonces ⊆ redeemed := by
  induction entries generalizing redeemed with
  | nil => exact Finset.Subset.refl _
  | cons entry rest ih =>
      unfold dropEntries
      split
      · exact (ih _).trans (Finset.erase_subset _ _)
      · exact Finset.Subset.refl _

/-- The entry has expired, or enough other nonces followed it. -/
def Forgotten (window : Int) (limit clock : Nat) (entry : NonceEntry) (later : List NonceEntry) :
    Prop :=
  (entry.timestamp : Int) + window * nanosPerSecond < clock ∨
    limit ≤ ((nonces later).erase entry.nonce).card

theorem Forgotten.mono {window : Int} {limit clock now : Nat} {entry : NonceEntry}
    {later more : List NonceEntry} (forgotten : Forgotten window limit clock entry later)
    (monotone : clock ≤ now) (longer : later ⊆ more) : Forgotten window limit now entry more := by
  rcases forgotten with expired | followed
  · exact .inl (by omega)
  · refine .inr (followed.trans (Finset.card_le_card (Finset.erase_subset_erase _ ?_)))
    intro nonce member
    rw [nonces, List.mem_toFinset] at member ⊢
    exact List.map_subset _ longer member

/-- The queue is what remains of the redemptions once a forgotten front part has gone. -/
structure Remembers (window : Int) (limit clock : Nat) (redeemed : List NonceEntry)
    (cache : NonceCache) : Prop where
  coherent : cache.Coherent
  forgotten : ∃ dropped, redeemed = dropped ++ cache.nonceEntries ∧
    Trailed (Forgotten window limit clock) dropped cache.nonceEntries

variable {window : Int} {limit clock now : Nat} {redeemed : List NonceEntry} {cache : NonceCache}

theorem Remembers.mono (remembers : Remembers window limit clock redeemed cache)
    (monotone : clock ≤ now) : Remembers window limit now redeemed cache := by
  obtain ⟨dropped, split, trailed⟩ := remembers.forgotten
  exact ⟨remembers.coherent, dropped, split,
    trailed.imp fun _ _ _ forgotten => forgotten.mono monotone (List.Subset.refl _)⟩

/-- The expiry forgets expired entries only. -/
theorem Remembers.dropExpired (fits : WindowFits window)
    (remembers : Remembers window limit clock redeemed cache) (monotone : clock ≤ now) :
    Remembers window limit now redeemed (cache.dropExpired (cutoff now window)) := by
  obtain ⟨dropped, split, trailed⟩ := (remembers.mono monotone).forgotten
  obtain ⟨front, queue, coherent, expired⟩ := dropEntries_spec
    (fun entry _ => (entry.timestamp : Int) < cutoff now window) remembers.coherent.distinct
  rw [← remembers.coherent.listed] at queue coherent expired
  refine ⟨coherent, dropped ++ front, ?_, Trailed.append.mpr ⟨?_, ?_⟩⟩
  · rw [split, List.append_assoc]
    exact congrArg (dropped ++ ·) queue
  · rw [queue] at trailed
    exact trailed
  · refine expired.imp fun entry later _ old => .inl ?_
    rw [decide_eq_true_eq] at old
    have bound := cutoff_le fits now
    omega

/-- A fresh nonce joins the set and the back of the queue. -/
theorem Coherent.insert (coherent : cache.Coherent) {nonce : Nonce}
    (fresh : nonce ∉ cache.redeemedNonces) (now : Nat) :
    Coherent ⟨insert nonce cache.redeemedNonces, cache.nonceEntries ++ [⟨nonce, now⟩]⟩ := by
  constructor
  · rw [coherent.listed, nonces, nonces, List.map_append, List.toFinset_append, Finset.union_comm]
    rfl
  · rw [List.map_append, List.map_singleton, List.nodup_append]
    refine ⟨coherent.distinct, List.nodup_singleton _, fun old member new single => ?_⟩
    rw [List.mem_singleton.mp single]
    rintro rfl
    rw [coherent.listed] at fresh
    exact fresh (List.mem_toFinset.mpr member)

/-- A fresh nonce is recorded, and what it displaces was followed by enough nonces. -/
theorem Remembers.insert (remembers : Remembers window limit now redeemed cache) {nonce : Nonce}
    (fresh : nonce ∉ cache.redeemedNonces) :
    nonce ∉ (cache.dropOldest limit).redeemedNonces ∧
      Remembers window limit now (redeemed ++ [⟨nonce, now⟩])
        ⟨insert nonce (cache.dropOldest limit).redeemedNonces,
          (cache.dropOldest limit).nonceEntries ++ [⟨nonce, now⟩]⟩ := by
  obtain ⟨dropped, split, trailed⟩ := remembers.forgotten
  obtain ⟨front, queue, coherent, full⟩ := dropEntries_spec
    (fun _ redeemed => redeemed.card ≥ limit) remembers.coherent.distinct
  rw [← remembers.coherent.listed] at queue coherent full
  change cache.nonceEntries = front ++ (cache.dropOldest limit).nonceEntries at queue
  change (cache.dropOldest limit).Coherent at coherent
  have absent : nonce ∉ (cache.dropOldest limit).redeemedNonces :=
    fun member => fresh (dropEntries_subset _ _ _ member)
  refine ⟨absent, coherent.insert absent now, dropped ++ front, ?_, Trailed.append.mpr ⟨?_, ?_⟩⟩
  · rw [split, queue, List.append_assoc, List.append_assoc, List.append_assoc]
  · rw [queue] at trailed
    refine trailed.imp fun entry later _ forgotten => forgotten.mono le_rfl ?_
    intro old member
    simp only [List.mem_append] at member ⊢
    tauto
  · refine full.imp fun entry later suffix atLimit => .inr ?_
    have within : (entry :: (later ++ (cache.dropOldest limit).nonceEntries)) <:+
        cache.nonceEntries := by
      obtain ⟨before, same⟩ := suffix
      exact ⟨before, by rw [queue, ← same, List.append_assoc, List.cons_append]⟩
    have unlisted : nonce ∉ (entry :: (later ++ (cache.dropOldest limit).nonceEntries)).map
        NonceEntry.nonce := by
      intro member
      rw [remembers.coherent.listed, nonces, List.mem_toFinset] at fresh
      exact fresh (List.map_subset _ within.subset member)
    rw [nonces, ← List.append_assoc, card_append_erase
      (remembers.coherent.distinct.sublist (within.sublist.map NonceEntry.nonce)) unlisted]
    exact of_decide_eq_true atLimit

/-- A fresh nonce is accepted after the expiry of others. -/
theorem Remembers.checkAndAddNonce (fits : WindowFits window)
    (remembers : Remembers window limit clock redeemed cache) (monotone : clock ≤ now) {nonce : Nonce}
    (fresh : nonce ∉ cache.redeemedNonces) :
    (cache.checkAndAddNonce window limit now nonce).1 = true ∧
      Remembers window limit now (redeemed ++ [⟨nonce, now⟩])
        (cache.checkAndAddNonce window limit now nonce).2 := by
  obtain ⟨absent, recorded⟩ := (remembers.dropExpired fits monotone).insert
    fun member => fresh (dropEntries_subset _ _ _ member)
  unfold NonceCache.checkAndAddNonce
  dsimp only
  rw [if_neg absent]
  exact ⟨rfl, recorded⟩

/-- A redemption of an absent nonce finds each earlier redemption of it forgotten. -/
theorem Remembers.forgotten_of_notMem (remembers : Remembers window limit clock redeemed cache)
    {before after : List NonceEntry} {entry : NonceEntry}
    (split : redeemed = before ++ entry :: after) (absent : entry.nonce ∉ cache.redeemedNonces) :
    Forgotten window limit clock entry after := by
  obtain ⟨dropped, queue, trailed⟩ := remembers.forgotten
  refine trailed.of_split (queue.symm.trans split) fun member => absent ?_
  rw [remembers.coherent.listed, nonces, List.mem_toFinset]
  exact List.mem_map_of_mem member

end NonceCache

namespace TokenAuthenticator

section Memory

variable [CryptoBackend]

/-- The clock never goes back, and every redemption validates its token. -/
def redeemAllowed (history : List ((Nat × Call) × Answer)) (input : Nat × Call) : Prop :=
  Machine.clocked history input ∧ ∀ token, input.2 ≠ .markRedeemed token

/-- This function lists the redemptions that succeeded. -/
def redemption : (Nat × Call) × Answer → Option NonceEntry
  | ((now, .validateAndRedeem token _), .result result) =>
      if result.valid = true then some ⟨token.nonce, now⟩ else none
  | _ => none

def redemptions (history : List ((Nat × Call) × Answer)) : List NonceEntry :=
  history.filterMap redemption

/-- The authenticator keeps its configuration and remembers its redemptions at every later time. -/
structure Remembers (config : TokenAuthenticatorConfig) (history : List ((Nat × Call) × Answer))
    (authenticator : TokenAuthenticator) : Prop where
  configured : authenticator.config = config
  cache : ∀ now, (∀ past ∈ history, past.1.1 ≤ now) → NonceCache.Remembers config.replayWindow
    (maxSize config) now (redemptions history) authenticator.cache

variable {config : TokenAuthenticatorConfig} {history : List ((Nat × Call) × Answer)}
  {authenticator : TokenAuthenticator}

/-- A successful redemption finds its nonce fresh and records it. -/
theorem validateAndRedeem_valid {now : Nat} {token : Token} {challenge : TokenChallenge}
    (valid : (authenticator.validateAndRedeem now token challenge).1.valid = true) :
    token.nonce ∉ authenticator.cache.redeemedNonces ∧
      (authenticator.validateAndRedeem now token challenge).2 =
        (authenticator.checkAndAddNonce now token.nonce).2 := by
  unfold validateAndRedeem at valid ⊢
  dsimp only at valid ⊢
  split at valid
  · cases valid
  · next fresh =>
      refine ⟨fresh, ?_⟩
      rw [if_neg fresh]
      split at valid
      · next refused => rw [refused] at valid; cases valid
      · next passed =>
          rw [if_neg passed]
          split <;> rfl

/-- A fresh nonce is accepted after the pruning, as the pruning adds nothing. -/
theorem checkAndAddNonce_fresh {nonce : Nonce} (fresh : nonce ∉ authenticator.cache.redeemedNonces)
    (now : Nat) : (authenticator.checkAndAddNonce now nonce).1 = true ∧
      nonce ∈ (authenticator.checkAndAddNonce now nonce).2.cache.redeemedNonces := by
  have absent : nonce ∉ (NonceCache.dropOldest (maxSize authenticator.config)
      (NonceCache.dropExpired (NonceCache.cutoff now authenticator.config.replayWindow)
        authenticator.cache)).redeemedNonces := fun member =>
    fresh (NonceCache.dropEntries_subset _ _ _ (NonceCache.dropEntries_subset _ _ _ member))
  unfold checkAndAddNonce NonceCache.checkAndAddNonce
  dsimp only
  rw [if_neg absent]
  exact ⟨rfl, Finset.mem_insert_self _ _⟩

/-- A redemption that fails leaves the authenticator as it was. -/
theorem validateAndRedeem_invalid {now : Nat} {token : Token} {challenge : TokenChallenge}
    (invalid : (authenticator.validateAndRedeem now token challenge).1.valid = false) :
    (authenticator.validateAndRedeem now token challenge).2 = authenticator := by
  unfold validateAndRedeem at invalid ⊢
  dsimp only at invalid ⊢
  split
  · rfl
  · next fresh =>
      rw [if_neg fresh] at invalid
      split
      · rfl
      · next passed =>
          rw [if_neg passed] at invalid
          rw [if_neg (by rw [(checkAndAddNonce_fresh fresh now).1]; simp)] at invalid
          exact absurd invalid passed

/-- A new authenticator has redeemed nothing. -/
theorem remembers_create (config : TokenAuthenticatorConfig) :
    Remembers config [] (create config) where
  configured := rfl
  cache _ _ := ⟨⟨rfl, List.nodup_nil⟩, [], rfl, trivial⟩

/-- A call that touches neither the configuration nor the cache keeps the memory. -/
theorem Remembers.frame {moved : TokenAuthenticator} {event : (Nat × Call) × Answer}
    (remembers : Remembers config history authenticator)
    (configured : moved.config = authenticator.config) (cache : moved.cache = authenticator.cache)
    (unredeemed : redemption event = none) : Remembers config (history ++ [event]) moved where
  configured := configured.trans remembers.configured
  cache now clocked := by
    rw [cache, redemptions, List.filterMap_append, List.filterMap_cons, unredeemed,
      List.filterMap_nil, List.append_nil]
    exact remembers.cache now fun past member => clocked past (List.mem_append_left _ member)

/-- A redemption is recorded when it succeeds. -/
theorem Remembers.validateAndRedeem (fits : NonceCache.WindowFits config.replayWindow)
    (remembers : Remembers config history authenticator) {now : Nat}
    (clocked : ∀ past ∈ history, past.1.1 ≤ now) (token : Token) (challenge : TokenChallenge) :
    Remembers config (history ++ [((now, .validateAndRedeem token challenge),
        .result (authenticator.validateAndRedeem now token challenge).1)])
      (authenticator.validateAndRedeem now token challenge).2 := by
  cases outcome : (authenticator.validateAndRedeem now token challenge).1.valid with
  | false =>
      rw [validateAndRedeem_invalid outcome]
      exact remembers.frame rfl rfl (by simp [redemption, outcome])
  | true =>
      obtain ⟨fresh, recorded⟩ := validateAndRedeem_valid outcome
      rw [recorded]
      refine ⟨remembers.configured, fun later after => ?_⟩
      rw [redemptions, List.filterMap_append, List.filterMap_cons, redemption, if_pos outcome,
        checkAndAddNonce, remembers.configured]
      exact ((remembers.cache now clocked).checkAndAddNonce fits le_rfl fresh).2.mono
        (after _ (List.mem_append_right _ (List.mem_singleton.mpr rfl)))

/-- Each allowed call keeps the memory. -/
theorem Remembers.step {input : Nat × Call} (fits : NonceCache.WindowFits config.replayWindow)
    (remembers : Remembers config history authenticator) (legal : redeemAllowed history input) :
    Remembers config (history ++ [(input, (machine.step authenticator input).1)])
      (machine.step authenticator input).2 := by
  rcases input with ⟨now, call⟩
  obtain ⟨clocked, unmarked⟩ := legal
  cases call with
  | addTrustedKey issuer key => exact remembers.frame rfl rfl rfl
  | addTrustedVoprfKey issuer key => exact remembers.frame rfl rfl rfl
  | removeTrustedIssuer issuer => exact remembers.frame rfl rfl rfl
  | isTrusted issuer => exact remembers.frame rfl rfl rfl
  | validate token challenge => exact remembers.frame rfl rfl rfl
  | validateAndRedeem token challenge => exact remembers.validateAndRedeem fits clocked token challenge
  | wouldBeReplay token => exact remembers.frame rfl rfl rfl
  | markRedeemed token => exact absurd rfl (unmarked token)
  | redemptionCacheSize => exact remembers.frame rfl rfl rfl
  | pruneRedemptionCache =>
      refine ⟨remembers.configured, fun later after => ?_⟩
      rw [redemptions, List.filterMap_append, List.filterMap_cons]
      have pruned := ((remembers.cache now clocked).dropExpired fits le_rfl).mono
        (after _ (List.mem_append_right _ (List.mem_singleton.mpr rfl)))
      rw [← remembers.configured, redemptions, ← List.append_nil (history.filterMap redemption)] at pruned
      rw [← remembers.configured]
      exact pruned

/-- Two successful redemptions of one nonce lie more than the window apart, or as many other nonces
as the cache holds were redeemed between them. -/
theorem validateAndRedeem_apart (fits : NonceCache.WindowFits config.replayWindow)
    {before between after : List ((Nat × Call) × Answer)}
    {firstTime secondTime : Nat} {first second : Token} {firstChallenge secondChallenge : TokenChallenge}
    {firstResult secondResult : ValidationResult}
    (runs : machine.Runs redeemAllowed (create config)
      (before ++ ((firstTime, .validateAndRedeem first firstChallenge), .result firstResult) ::
        (between ++ ((secondTime, .validateAndRedeem second secondChallenge), .result secondResult) ::
          after)) authenticator)
    (firstValid : firstResult.valid = true) (secondValid : secondResult.valid = true)
    (same : first.nonce = second.nonce) :
    config.replayWindow * nanosPerSecond < (secondTime : Int) - firstTime ∨
      maxSize config ≤ ((NonceCache.nonces (redemptions between)).erase first.nonce).card := by
  rw [← List.cons_append, ← List.append_assoc] at runs
  obtain ⟨middle, earlier, ⟨clocked, -⟩, answered, -⟩ := runs.split
  have remembers := earlier.invariant (remembers_create config)
    fun _ _ _ remembers legal => remembers.step fits legal
  have valid : (middle.validateAndRedeem secondTime second secondChallenge).1.valid = true := by
    rw [← secondValid]
    exact congrArg ValidationResult.valid (Answer.result.inj answered).symm
  have split : redemptions (before ++ ((firstTime, .validateAndRedeem first firstChallenge),
      .result firstResult) :: between) =
        redemptions before ++ ⟨first.nonce, firstTime⟩ :: redemptions between := by
    rw [redemptions, List.filterMap_append, List.filterMap_cons, redemption, if_pos firstValid]
    rfl
  have forgotten := (remembers.cache secondTime clocked).forgotten_of_notMem split
    (by rw [same]; exact (validateAndRedeem_valid valid).1)
  rcases forgotten with expired | followed
  · exact .inl (by dsimp only at expired; omega)
  · exact .inr followed

end Memory

section Instances

theorem validateAndRedeem_empty [CryptoBackend] {authenticator : TokenAuthenticator} {now : Nat}
    {token : Token} {challenge : TokenChallenge} {digest : ChallengeDigest}
    (checked : authenticator.check token challenge = .success digest)
    (empty : authenticator.cache = {}) :
    authenticator.validateAndRedeem now token challenge = (.success digest,
      { authenticator with cache := ⟨{token.nonce}, [⟨token.nonce, now⟩]⟩ }) := by
  unfold validateAndRedeem checkAndAddNonce
  rw [empty, if_neg (Finset.notMem_empty _), checked]
  rfl

/-- The pruning empties a cache whose only entry lies before the cutoff. -/
theorem pruneRedemptionCache_expired [CryptoBackend] {authenticator : TokenAuthenticator}
    {nonce : Nonce} {time now : Nat}
    (expired : (time : Int) < NonceCache.cutoff now authenticator.config.replayWindow)
    (empty : authenticator.cache = {}) :
    { authenticator with cache := ⟨{nonce}, [⟨nonce, time⟩]⟩ }.pruneRedemptionCache now =
      authenticator := by
  rcases authenticator with ⟨config, origin, rsaKeys, voprfKeys, cache⟩
  cases empty
  unfold pruneRedemptionCache
  dsimp only at expired ⊢
  rw [NonceCache.dropExpired, NonceCache.dropEntries, if_pos (by simpa using expired),
    Finset.erase_singleton]
  rfl

open MultiKeyIssuer (sharedBackend sharedRsaKey sharedToken)

/-- The token is redeemed, forgotten and redeemed again. -/
def repeatedHistory (n d now : Nat) : List ((Nat × @Call sharedBackend.toCryptoBackend) × Answer) :=
  trustingHistory [0x69] n ++
    ((0, @Call.validateAndRedeem sharedBackend.toCryptoBackend (sharedToken n d) pssChallenge),
      .result (.success (sharedToken n d).challengeDigest)) ::
    ([((now, @Call.pruneRedemptionCache sharedBackend.toCryptoBackend), .done)] ++
      ((now, @Call.validateAndRedeem sharedBackend.toCryptoBackend (sharedToken n d) pssChallenge),
        .result (.success (sharedToken n d).challengeDigest)) :: [])

theorem repeatedHistory_runs {n d : Nat} (exponents : BlindSignature.RsaExponents n 65537 d)
    (bits : bnNumBits n = rsaBits) {config : TokenAuthenticatorConfig} {now : Nat}
    (expired : 0 < NonceCache.cutoff now config.replayWindow) : ∃ authenticator,
    (@machine sharedBackend.toCryptoBackend).Runs (@redeemAllowed sharedBackend.toCryptoBackend)
      (@create sharedBackend.toCryptoBackend config) (repeatedHistory n d now) authenticator := by
  have redeemed (tick : Nat) : (@machine sharedBackend.toCryptoBackend).step
      (trustingAuthenticator config [0x69] n)
      (tick, @Call.validateAndRedeem sharedBackend.toCryptoBackend (sharedToken n d) pssChallenge) =
        (.result (.success (sharedToken n d).challengeDigest), _) :=
    congrArg (fun outcome => (Answer.result outcome.1, outcome.2))
      (@validateAndRedeem_empty sharedBackend.toCryptoBackend _ tick _ _ _
        (trustingAuthenticator_check exponents bits config [0x69]) rfl)
  have adds : @redeemAllowed sharedBackend.toCryptoBackend []
      (0, @Call.addTrustedKey sharedBackend.toCryptoBackend [0x69] (sharedRsaKey n)) := by
    simp [redeemAllowed, Machine.clocked]
  have added := trustingAuthenticator_runs config adds
  have first := added.next (by simp [redeemAllowed, Machine.clocked, trustingHistory]) (redeemed 0)
  have pruned := first.step (now, @Call.pruneRedemptionCache sharedBackend.toCryptoBackend)
    (by simp [redeemAllowed, Machine.clocked, trustingHistory])
  change Machine.Runs _ _ _ _ (@pruneRedemptionCache sharedBackend.toCryptoBackend _ now) at pruned
  rw [@pruneRedemptionCache_expired sharedBackend.toCryptoBackend (trustingAuthenticator config [0x69] n)
    (sharedToken n d).nonce 0 now expired rfl] at pruned
  exact ⟨_, pruned.next (by simp [redeemAllowed, Machine.clocked, trustingHistory]) (redeemed now)⟩

/-- The window of one second has passed between the two redemptions. -/
theorem validateAndRedeem_apart_repeated :
    briefConfig.replayWindow * nanosPerSecond < ((1000000001 : Nat) : Int) - (0 : Nat) ∨
      maxSize briefConfig ≤ ((NonceCache.nonces (@redemptions sharedBackend.toCryptoBackend
        [((1000000001, @Call.pruneRedemptionCache sharedBackend.toCryptoBackend), .done)])).erase
          (sharedToken recordedModulus recordedExponent).nonce).card := by
  obtain ⟨authenticator, runs⟩ := @repeatedHistory_runs _ _ recorded_exponents recordedModulus_bits
    briefConfig 1000000001 (by decide)
  exact @validateAndRedeem_apart sharedBackend.toCryptoBackend briefConfig authenticator (by decide) _ _ _
    0 1000000001 _ _ pssChallenge pssChallenge _ _ runs rfl rfl rfl

/-- The window of this authenticator is the longest one that can be configured. -/
def longestConfig : TokenAuthenticatorConfig :=
  { issuerName := ascii "issuer.example.com", originNames := [], replayWindow := 2 ^ 63 - 1 }

/-- The longest window becomes a negative one, and a token is redeemed twice at one time. -/
theorem validateAndRedeem_not_apart :
    ¬ ∀ (config : TokenAuthenticatorConfig)
      (before between after : List ((Nat × @Call sharedBackend.toCryptoBackend) × Answer))
      (authenticator : @TokenAuthenticator sharedBackend.toCryptoBackend) (firstTime secondTime : Nat)
      (first second : Token) (firstChallenge secondChallenge : TokenChallenge)
      (firstResult secondResult : ValidationResult),
      0 ≤ config.replayWindow → config.replayWindow < 2 ^ 63 →
      (@machine sharedBackend.toCryptoBackend).Runs (@redeemAllowed sharedBackend.toCryptoBackend)
        (@create sharedBackend.toCryptoBackend config)
        (before ++ ((firstTime, @Call.validateAndRedeem sharedBackend.toCryptoBackend first firstChallenge),
          .result firstResult) ::
            (between ++ ((secondTime, @Call.validateAndRedeem sharedBackend.toCryptoBackend second
              secondChallenge), .result secondResult) :: after)) authenticator →
      firstResult.valid = true → secondResult.valid = true → first.nonce = second.nonce →
      config.replayWindow * nanosPerSecond < (secondTime : Int) - firstTime ∨
        maxSize config ≤ ((NonceCache.nonces (@redemptions sharedBackend.toCryptoBackend between)).erase
          first.nonce).card := by
  intro always
  obtain ⟨authenticator, runs⟩ := @repeatedHistory_runs _ _ recorded_exponents recordedModulus_bits
    longestConfig 0 (by decide)
  rcases always longestConfig _ _ _ authenticator 0 0 _ _ pssChallenge pssChallenge _ _ (by decide)
    (by decide) runs rfl rfl rfl with apart | followed
  · exact absurd apart (by decide)
  · have none : @redemptions sharedBackend.toCryptoBackend
        [((0, @Call.pruneRedemptionCache sharedBackend.toCryptoBackend), .done)] = [] := rfl
    simp [none, NonceCache.nonces, maxSize, longestConfig] at followed

end Instances

end TokenAuthenticator
end PrivacyPass
