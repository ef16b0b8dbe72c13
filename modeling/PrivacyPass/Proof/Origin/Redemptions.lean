import PrivacyPass.Proof.Origin.FailedRedemption
import PrivacyPass.Proof.Origin.Registry

/-
This file proves how often a nonce is redeemed where redemptions stand between other calls.
-/

namespace PrivacyPass

open Library Crypto

/-- A result whose error, if it has one, does not have this code. -/
def Avoids {α : Type} (code : ErrorCode) (result : Result α) : Prop :=
  ∀ error, result = .error error → error.code ≠ code

section Avoids

variable {α β : Type} {code : ErrorCode}

theorem avoids_ok (value : α) : Avoids code (.ok value : Result α) := by
  intro error refused
  cases refused

theorem avoids_error {error : Error} (other : error.code ≠ code) :
    Avoids code (.error error : Result α) := by
  intro failure refused
  cases refused
  exact other

theorem Avoids.bind {first : Result α} {next : α → Result β} (left : Avoids code first)
    (right : ∀ value, Avoids code (next value)) : Avoids code (first >>= next) := by
  cases first with
  | error error => exact avoids_error (left error rfl)
  | ok value => exact right value

end Avoids

theorem TokenChallenge.digest_avoids [HashBackend] (challenge : TokenChallenge) :
    Avoids .tokenReplayed challenge.digest.1 := by
  unfold digest
  split
  · exact avoids_ok _
  split
  · next error failed =>
      apply avoids_error
      unfold serialize at failed
      split at failed
      · cases failed
        decide
      dsimp only at failed
      split at failed
      · cases failed
        decide
      · cases failed
  split
  · exact avoids_ok _
  · next bytes serialized error failed =>
      apply avoids_error
      unfold sha256 at failed
      split at failed <;> cases failed
      decide

/-- Only the replay cache calls a token replayed. -/
theorem PublicOrigin.verify_avoids [RsaBackend] (origin : PublicOrigin) (token : Token)
    (challenge : TokenChallenge) : Avoids .tokenReplayed (origin.verify token challenge) := by
  unfold verify
  apply Avoids.bind
  · unfold Token.validate
    dsimp only
    split
    · exact avoids_error (by decide)
    split
    · exact avoids_error (by decide)
    · exact avoids_ok _
  intro structured
  split
  · exact avoids_error (by decide)
  apply challenge.digest_avoids.bind
  intro digest
  split
  · exact avoids_error (by decide)
  split
  · exact avoids_error (by decide)
  · apply (avoids_ok _).bind
    intro bytes
    unfold BlindRsaPublicKey.verify
    split
    · exact avoids_error (by decide)
    split
    · exact avoids_error (by decide)
    · exact avoids_ok _

theorem Origin.verify_avoids [CryptoBackend] (origin : Origin) (token : Token)
    (challenge : TokenChallenge) : Avoids .tokenReplayed (origin.verify token challenge) := by
  unfold verify
  split
  · split
    · exact PublicOrigin.verify_avoids _ token challenge
    · exact avoids_error (by decide)
  split
  · exact avoids_error (by decide)
  · exact avoids_error (by decide)

/-- The answer to a nonce that the cache knows. -/
abbrev replayed : Result Bool := .error ⟨.tokenReplayed, "Token has already been redeemed"⟩

theorem Avoids.ne_replayed {result : Result Bool} (avoids : Avoids .tokenReplayed result) :
    result ≠ replayed := by
  intro same
  exact avoids _ same rfl

namespace ReplayCache

variable {cache : ReplayCache} {nonce : Nonce}

/-- A pruning adds no nonce. -/
theorem allNonces_pruneExpired (cache : ReplayCache) (tick : Nat) :
    (cache.pruneExpired tick).allNonces ⊆ cache.allNonces := by
  have front (moved : ReplayCache) (kept : moved.allNonces ⊆ cache.allNonces) :
      moved.dropFront.allNonces ⊆ cache.allNonces := by
    unfold dropFront
    split
    · exact kept
    split
    · exact Finset.sdiff_subset.trans kept
    · exact kept
  have keeps {condition : ReplayCache → Nat → Bool} {order : List Nat} {moved : ReplayCache}
      (kept : moved.allNonces ⊆ cache.allNonces) :
      (dropBuckets condition order moved).allNonces ⊆ cache.allNonces :=
    @dropBuckets_keeps (fun moved => moved.allNonces ⊆ cache.allNonces) front condition order moved kept
  unfold pruneExpired
  split
  · exact Finset.Subset.refl _
  · exact keeps (keeps (Finset.Subset.refl _))

/-- A check adds no nonce but its own. -/
theorem mem_checkAndAdd {tick : Nat} {known : Nonce}
    (member : known ∈ (cache.checkAndAdd tick nonce).2.allNonces) :
    known = nonce ∨ known ∈ cache.allNonces := by
  by_cases recorded : nonce ∈ (cache.pruneExpired tick).allNonces
  · rw [checkAndAdd_of_known recorded] at member
    exact .inr (allNonces_pruneExpired cache tick member)
  · rw [checkAndAdd_of_fresh recorded] at member
    rcases Finset.mem_insert.mp member with same | old
    · exact .inl same
    · exact .inr (allNonces_pruneExpired cache tick old)

/-- A redemption accepts what the verification accepts. -/
theorem of_redeem {tick : Nat} {verified : Result Bool}
    (redeemed : (cache.redeem tick nonce verified).1 = .ok true) : verified = .ok true := by
  unfold redeem at redeemed
  split at redeemed
  · cases redeemed
  · exact redeemed

end ReplayCache

section Redeems

variable {σ ι ω : Type} {machine : Machine σ (Nat × ι) ω} {cache : σ → ReplayCache}
  {presented : ι → Option Nonce} {result : ω → Option (Result Bool)}
  {allowed : List ((Nat × ι) × ω) → Nat × ι → Prop} {history : List ((Nat × ι) × ω)}
  {initial state : σ} {nonce : Nonce}

/-- The machine hands each presented nonce to its replay cache and leaves the cache alone otherwise. -/
structure Redeems (machine : Machine σ (Nat × ι) ω) (cache : σ → ReplayCache)
    (presented : ι → Option Nonce) (result : ω → Option (Result Bool)) : Prop where
  redeemed : ∀ state tick call nonce, presented call = some nonce →
    ∃ verified, Avoids .tokenReplayed verified ∧
      result (machine.step state (tick, call)).1 = some ((cache state).redeem tick nonce verified).1 ∧
      cache (machine.step state (tick, call)).2 = ((cache state).redeem tick nonce verified).2
  kept : ∀ state tick call, presented call = none →
    cache (machine.step state (tick, call)).2 = cache state

/-- A presented nonce is a call on the replay cache. -/
def redeemEvent (presented : ι → Option Nonce) (result : ω → Option (Result Bool))
    (event : (Nat × ι) × ω) : Option ((Nat × ReplayCache.Call) × ReplayCache.Answer) :=
  (presented event.1.2).map fun nonce =>
    ((event.1.1, .checkAndAdd nonce), .flag (decide (result event.2 ≠ some replayed)))

/-- This function lists the nonces of the history that were presented. -/
def presentedNonces (presented : ι → Option Nonce) (history : List ((Nat × ι) × ω)) : List Nonce :=
  history.filterMap fun event => presented event.1.2

/-- The answer to a nonce says whether the cache has taken it. -/
theorem redeem_flag {store : ReplayCache} {tick : Nat} {verified : Result Bool}
    (avoids : Avoids .tokenReplayed verified) :
    decide (some (store.redeem tick nonce verified).1 ≠ some replayed) =
        (store.checkAndAdd tick nonce).1 ∧
      (store.redeem tick nonce verified).2 = (store.checkAndAdd tick nonce).2 := by
  unfold ReplayCache.redeem
  cases flag : (store.checkAndAdd tick nonce).1 with
  | false => exact ⟨decide_eq_false (by simp), rfl⟩
  | true =>
      refine ⟨decide_eq_true ?_, rfl⟩
      intro same
      exact avoids.ne_replayed (Option.some.inj same)

/-- The cache takes presented nonces only. -/
theorem acceptedValues_presented
    (member : nonce ∈ TimedSet.acceptedValues (history.filterMap (redeemEvent presented result))) :
    nonce ∈ presentedNonces presented history := by
  obtain ⟨event, inside, taken⟩ := List.mem_filterMap.mp member
  obtain ⟨past, earlier, found⟩ := List.mem_filterMap.mp inside
  obtain ⟨other, named, rfl⟩ := Option.map_eq_some_iff.mp found
  refine List.mem_filterMap.mpr ⟨past, earlier, ?_⟩
  rw [named]
  split at taken
  · next same =>
      cases (Prod.mk.inj (Prod.mk.inj same).1).2
      exact taken
  · cases taken

/-- The presented nonces drive the cache through a run of its own. -/
theorem Redeems.runs_cache (redeems : Redeems machine cache presented result)
    (runs : machine.Runs Machine.clocked initial history state) :
    ReplayCache.machine.Runs Machine.clocked (cache initial)
      (history.filterMap (redeemEvent presented result)) (cache state) := by
  refine runs.project cache (redeemEvent presented result) ?_ ?_
  · rintro history state ⟨tick, call⟩ legal seen found
    obtain ⟨nonce, named, rfl⟩ := Option.map_eq_some_iff.mp found
    obtain ⟨verified, avoids, answer, moved⟩ := redeems.redeemed state tick call nonce named
    obtain ⟨flag, next⟩ := @redeem_flag nonce (cache state) tick verified avoids
    constructor
    · apply Machine.clocked_filterMap legal
      intro past seen found
      obtain ⟨other, -, rfl⟩ := Option.map_eq_some_iff.mp found
      rfl
    · rw [answer, moved, flag, next]
      rfl
  · rintro history state ⟨tick, call⟩ legal hidden
    exact redeems.kept state tick call (Option.map_eq_none_iff.mp hidden)

/-- The cache knows presented nonces only. -/
theorem Redeems.known (redeems : Redeems machine cache presented result)
    (empty : (cache initial).allNonces = ∅) (runs : machine.Runs allowed initial history state) :
    ∀ nonce ∈ (cache state).allNonces, nonce ∈ presentedNonces presented history := by
  refine @Machine.Runs.invariant _ _ _ machine _ _ _ _ (fun history state =>
    ∀ nonce ∈ (cache state).allNonces, nonce ∈ presentedNonces presented history) ?_ ?_ runs
  · intro nonce member
    rw [empty] at member
    exact absurd member (Finset.notMem_empty nonce)
  · rintro history state ⟨tick, call⟩ held - nonce member
    unfold presentedNonces
    rw [List.filterMap_append, List.mem_append]
    cases named : presented call with
    | none =>
        rw [redeems.kept state tick call named] at member
        exact .inl (held nonce member)
    | some current =>
        obtain ⟨verified, avoids, -, moved⟩ := redeems.redeemed state tick call current named
        rw [moved, (redeem_flag avoids).2] at member
        rcases ReplayCache.mem_checkAndAdd member with same | old
        · right
          simp [named, same]
        · exact .inl (held nonce old)

/-- The first time that a nonce is presented, the answer is that of the verification. -/
theorem Redeems.first (redeems : Redeems machine cache presented result)
    (empty : (cache initial).allNonces = ∅) (runs : machine.Runs allowed initial history state)
    (unpresented : nonce ∉ presentedNonces presented history) (tick : Nat) (verified : Result Bool) :
    ((cache state).redeem tick nonce verified).1 = verified := by
  have fresh : nonce ∉ ((cache state).pruneExpired tick).allNonces := by
    intro member
    exact unpresented (redeems.known empty runs nonce (ReplayCache.allNonces_pruneExpired _ tick member))
  rw [ReplayCache.redeem_of_fresh fresh]

/-- Two redemptions of one nonce that are not refused as replays lie at least the window apart while
the cache has room for all presented nonces. -/
theorem Redeems.apart (redeems : Redeems machine cache presented result)
    {windowSeconds maxSize : Nat}
    (empty : cache initial = { windowSeconds := windowSeconds, maxSize := maxSize })
    {before middle after : List ((Nat × ι) × ω)} {first second : Nat} {left right : ι}
    {leftAnswer rightAnswer : ω}
    (runs : machine.Runs Machine.clocked initial (before ++ ((first, left), leftAnswer) ::
      (middle ++ ((second, right), rightAnswer) :: after)) state)
    (leftNamed : presented left = some nonce) (rightNamed : presented right = some nonce)
    (leftTaken : result leftAnswer ≠ some replayed) (rightTaken : result rightAnswer ≠ some replayed)
    (few : (presentedNonces presented (before ++ ((first, left), leftAnswer) ::
      (middle ++ ((second, right), rightAnswer) :: after))).toFinset.card ≤ maxSize) :
    first + windowSeconds ≤ second := by
  have followed := redeems.runs_cache runs
  rw [empty] at followed
  have cut : (before ++ ((first, left), leftAnswer) :: (middle ++ ((second, right), rightAnswer) ::
      after)).filterMap (redeemEvent presented result) =
      before.filterMap (redeemEvent presented result) ++ ((first, .checkAndAdd nonce), .flag true) ::
        (middle.filterMap (redeemEvent presented result) ++
          ((second, .checkAndAdd nonce), .flag true) ::
            after.filterMap (redeemEvent presented result)) := by
    simp [redeemEvent, leftNamed, rightNamed, leftTaken, rightTaken]
  obtain ⟨entries, shadow, -⟩ := ReplayCache.runs_refine followed
  rw [cut] at shadow
  refine TimedSet.accepted_apart shadow ((Finset.card_le_card ?_).trans few)
  intro value member
  rw [List.mem_toFinset] at member ⊢
  apply acceptedValues_presented
  rw [cut, ← List.cons_append, ← List.append_assoc]
  exact List.mem_toFinset.mp (TimedSet.acceptedValues_append _ _ (List.mem_toFinset.mpr member))

end Redeems

namespace PublicOrigin

/-- The nonce that a call presents to the replay cache. -/
def Call.presented : Call → Option Nonce
  | .verifyAndRedeem token _ => some token.nonce
  | _ => none

def Answer.value : Answer → Option (Result Bool)
  | .done => none
  | .result value => some value

theorem machine_redeems [RsaBackend] :
    Redeems machine PublicOrigin.replayCache Call.presented Answer.value := by
  constructor
  · intro origin tick call nonce presented
    cases call with
    | addIssuerKey key => cases presented
    | removeIssuerKey keyId => cases presented
    | verify token challenge => cases presented
    | verifyAndRedeem token challenge =>
        cases presented
        have redeemed := origin.verifyAndRedeem_eq tick token challenge
        refine ⟨origin.verify token challenge, origin.verify_avoids token challenge, ?_, ?_⟩
        · exact congrArg (fun outcome => some outcome.1) redeemed
        · exact congrArg (fun outcome => outcome.2.replayCache) redeemed
  · intro origin tick call presented
    cases call with
    | addIssuerKey key => exact addIssuerKey_replayCache origin key
    | removeIssuerKey keyId =>
        change (origin.removeIssuerKey keyId).replayCache = origin.replayCache
        unfold removeIssuerKey
        split <;> rfl
    | verify token challenge => rfl
    | verifyAndRedeem token challenge => cases presented

end PublicOrigin

namespace Origin

variable [CryptoBackend]

def Call.presented : Call → Option Nonce
  | .verifyAndRedeem token _ => some token.nonce
  | _ => none

theorem addBlindRsaKey_replayCache (origin : Origin) (key : BlindRsaPublicKey) :
    (origin.addBlindRsaKey key).replayCache = origin.replayCache := by
  unfold addBlindRsaKey
  dsimp only
  split
  · rfl
  · split <;> rfl

theorem machine_redeems :
    Redeems machine Origin.replayCache Call.presented PublicOrigin.Answer.value := by
  constructor
  · intro origin tick call nonce presented
    cases call with
    | addBlindRsaKey key => cases presented
    | addVoprfKey key => cases presented
    | verify token challenge => cases presented
    | verifyAndRedeem token challenge =>
        cases presented
        have redeemed := origin.verifyAndRedeem_eq tick token challenge
        refine ⟨origin.verify token challenge, origin.verify_avoids token challenge, ?_, ?_⟩
        · exact congrArg (fun outcome => some outcome.1) redeemed
        · exact congrArg (fun outcome => outcome.2.replayCache) redeemed
  · intro origin tick call presented
    cases call with
    | addBlindRsaKey key => exact origin.addBlindRsaKey_replayCache key
    | addVoprfKey key => rfl
    | verify token challenge => rfl
    | verifyAndRedeem token challenge => cases presented

/-- The two origins inside remember no nonce. -/
structure Unrecorded (origin : Origin) : Prop where
  publicOrigin : ∀ inner ∈ origin.publicOrigin, inner.replayCache.allNonces = ∅
  privateOrigin : ∀ inner ∈ origin.privateOrigin, inner.replayCache.allNonces = ∅

theorem unrecorded_step {origin : Origin} (unrecorded : origin.Unrecorded) (input : Nat × Call) :
    (machine.step origin input).2.Unrecorded := by
  rcases input with ⟨tick, call⟩
  cases call with
  | addBlindRsaKey key =>
      refine ⟨?_, ?_⟩
      · intro inner member
        change inner ∈ (origin.addBlindRsaKey key).publicOrigin at member
        unfold addBlindRsaKey at member
        dsimp only at member
        split at member
        · exact unrecorded.publicOrigin inner member
        split at member
        · cases member
          rw [PublicOrigin.create_replayCache]
          rfl
        · next outer found =>
            cases member
            rw [PublicOrigin.addIssuerKey_replayCache]
            exact unrecorded.publicOrigin outer found
      · intro inner member
        change inner ∈ (origin.addBlindRsaKey key).privateOrigin at member
        apply unrecorded.privateOrigin inner
        unfold addBlindRsaKey at member
        dsimp only at member
        split at member
        · exact member
        · split at member <;> exact member
  | addVoprfKey key =>
      refine ⟨unrecorded.publicOrigin, ?_⟩
      intro inner member
      cases member
      rfl
  | verify token challenge => exact unrecorded
  | verifyAndRedeem token challenge =>
      change (origin.verifyAndRedeem tick token challenge).2.Unrecorded
      rw [verifyAndRedeem_eq]
      exact ⟨unrecorded.publicOrigin, unrecorded.privateOrigin⟩

/-- This function lists the RSA keys of the history in their order. -/
def addedKeys (history : List ((Nat × Call) × PublicOrigin.Answer)) : List BlindRsaPublicKey :=
  history.filterMap fun event =>
    match event.1.2 with
    | .addBlindRsaKey key => some key
    | _ => none

section Runs

variable {allowed : List ((Nat × Call) × PublicOrigin.Answer) → Nat × Call → Prop}
  {config : OriginConfig} {history : List ((Nat × Call) × PublicOrigin.Answer)} {origin : Origin}

/-- The other calls leave the public origin as the additions of RSA keys have made it. -/
theorem publicOrigin_of_runs (runs : machine.Runs allowed (create config) history origin) :
    origin.config = config ∧ origin.publicOrigin =
      ((addedKeys history).foldl addBlindRsaKey (create config)).publicOrigin := by
  induction runs with
  | start => exact ⟨rfl, rfl⟩
  | @step history origin input before legal ih =>
      obtain ⟨configured, held⟩ := ih
      obtain ⟨sameConfig, -⟩ := publicOrigin_addBlindRsaKeys config (addedKeys history)
      rcases input with ⟨tick, call⟩
      unfold addedKeys at held sameConfig ⊢
      rw [List.filterMap_append]
      cases call with
      | addBlindRsaKey key =>
          change (origin.addBlindRsaKey key).config = config ∧
            (origin.addBlindRsaKey key).publicOrigin = _
          simp only [List.filterMap_cons, List.filterMap_nil, List.foldl_append, List.foldl_cons,
            List.foldl_nil]
          generalize (history.filterMap _).foldl addBlindRsaKey (create config) = other at held sameConfig ⊢
          unfold addBlindRsaKey
          cases copied : copyRsaKey key with
          | error error => exact ⟨configured, held⟩
          | ok copy =>
              dsimp only
              rw [← held, configured, sameConfig]
              cases origin.publicOrigin <;> exact ⟨rfl, rfl⟩
      | addVoprfKey key =>
          rw [List.filterMap_cons, List.filterMap_nil, List.append_nil]
          exact ⟨configured, held⟩
      | verify token challenge =>
          rw [List.filterMap_cons, List.filterMap_nil, List.append_nil]
          exact ⟨configured, held⟩
      | verifyAndRedeem token challenge =>
          change (origin.verifyAndRedeem tick token challenge).2.config = config ∧
            (origin.verifyAndRedeem tick token challenge).2.publicOrigin = _
          rw [verifyAndRedeem_eq]
          rw [List.filterMap_cons, List.filterMap_nil, List.append_nil]
          exact ⟨configured, held⟩

/-- The origin answers for a token as a public origin that is built from the copies of its RSA keys. -/
theorem verify_of_runs (runs : machine.Runs allowed (create config) history origin) (token : Token)
    (challenge : TokenChallenge) (answer : Bool) :
    origin.verify token challenge = .ok answer ↔
      (PublicOrigin.create config (copiedKeys (addedKeys history))).verify token challenge =
        .ok answer := by
  have held := (publicOrigin_of_runs runs).2
  rw [(publicOrigin_addBlindRsaKeys config (addedKeys history)).2] at held
  unfold verify
  split
  · rw [held]
    split_ifs with empty
    · apply iff_of_false (by simp)
      intro verified
      obtain ⟨-, -, -, key, ⟨index, found, -⟩, -⟩ := PublicOrigin.verify_eq_ok.mp verified
      rw [empty] at found
      cases found
    · rfl
  · next other =>
      apply iff_of_false
      · split <;> simp
      · intro verified
        exact other (PublicOrigin.verify_eq_ok.mp verified).2.1

/-- Over every run of key additions, verifications and redemptions the unified origin answers as a
public origin with the copies of its RSA keys, a first redemption answers as the verification, two
redemptions of one nonce lie at least the window apart, and the two origins inside record nothing. -/
theorem redemptions_of_runs (runs : machine.Runs Machine.clocked (create config) history origin) :
    (∀ token challenge answer, origin.verify token challenge = .ok answer ↔
      (PublicOrigin.create config (copiedKeys (addedKeys history))).verify token challenge =
        .ok answer) ∧
    (∀ tick token challenge, token.nonce ∉ presentedNonces Call.presented history →
      (origin.verifyAndRedeem tick token challenge).1 = origin.verify token challenge) ∧
    ((presentedNonces Call.presented history).toFinset.card ≤ config.maxReplayCacheSize →
      ∀ before middle after first second token other challenge expected left right,
        history = before ++ ((first, .verifyAndRedeem token challenge), .result left) ::
          (middle ++ ((second, .verifyAndRedeem other expected), .result right) :: after) →
        token.nonce = other.nonce → left ≠ replayed → right ≠ replayed →
        first + (create config).replayCache.windowSeconds ≤ second) ∧
    origin.Unrecorded := by
  refine ⟨verify_of_runs runs, ?_, ?_, ?_⟩
  · intro tick token challenge unpresented
    rw [verifyAndRedeem_eq]
    exact machine_redeems.first rfl runs unpresented tick _
  · intro few before middle after first second token other challenge expected left right whole same
      leftTaken rightTaken
    rw [whole] at runs few
    have named : Call.presented (.verifyAndRedeem token challenge) = some other.nonce :=
      congrArg some same
    exact machine_redeems.apart rfl runs named rfl (fun equal => leftTaken (Option.some.inj equal))
      (fun equal => rightTaken (Option.some.inj equal)) few
  · refine @Machine.Runs.invariant _ _ _ machine _ _ _ _ (fun _ origin => origin.Unrecorded) ?_ ?_ runs
    · exact ⟨by simp [create], by simp [create]⟩
    · intro history origin input unrecorded legal
      exact unrecorded_step unrecorded input

end Runs

end Origin

section Instances

abbrev zeroUnifiedOrigin : @Origin zeroBackend :=
  @Origin.addBlindRsaKey zeroBackend (@Origin.create zeroBackend zeroConfig) zeroKey

/-- The addition of a key is a run that presents no nonce. -/
theorem Origin.addBlindRsaKey_runs [CryptoBackend] (config : OriginConfig) (key : BlindRsaPublicKey) :
    machine.Runs Machine.clocked (create config) [((0, .addBlindRsaKey key), .done)]
        ((create config).addBlindRsaKey key) ∧
      ∀ nonce, nonce ∉ presentedNonces Call.presented [((0, .addBlindRsaKey key), PublicOrigin.Answer.done)] := by
  constructor
  · exact Machine.Runs.step (0, Call.addBlindRsaKey key) .start (by simp [Machine.clocked])
  · intro nonce
    exact List.not_mem_nil

/-- The unified origin with the one key redeems the token of zeros. -/
theorem Origin.redemptions_of_runs_zero : (@Origin.verifyAndRedeem zeroBackend zeroUnifiedOrigin 0
    zeroToken zeroChallenge).1 = .ok true := by
  obtain ⟨runs, unpresented⟩ := @Origin.addBlindRsaKey_runs zeroBackend zeroConfig zeroKey
  obtain ⟨answers, first, -, -⟩ := @Origin.redemptions_of_runs zeroBackend _ _ _ runs
  rw [first 0 zeroToken zeroChallenge (unpresented _)]
  have read : @BlindRsaPublicKey.fromSpki zeroBackend.toRsaBackend [0x30] = .ok zeroKey := by
    decide +kernel
  have written : @BlindRsaPublicKey.toSpki zeroBackend.toRsaBackend zeroKey = .ok [0x30] := rfl
  have copied : @Origin.copyRsaKey zeroBackend zeroKey = .ok zeroKey := by
    rw [@Origin.copyRsaKey.eq_1 zeroBackend, Result.bind_ok written, read]
  have keys : @Origin.copiedKeys zeroBackend [zeroKey] = [zeroKey] :=
    @Origin.copiedKeys_concat zeroBackend [] zeroKey zeroKey copied
  refine (answers zeroToken zeroChallenge true).mpr ?_
  change @PublicOrigin.verify zeroBackend.toRsaBackend (@PublicOrigin.create zeroBackend.toRsaBackend
    zeroConfig (@Origin.copiedKeys zeroBackend [zeroKey])) zeroToken zeroChallenge = .ok true
  rw [keys]
  exact zeroToken_verified zeroConfig

end Instances

end PrivacyPass
