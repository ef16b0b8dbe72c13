import PrivacyPass.Construction.Redemption
import PrivacyPass.Proof.Origin.Verify
import PrivacyPass.Proof.Replay.Representation

/-
This file proves that concurrent redemptions accept a nonce at most once in a window.
-/

namespace PrivacyPass.PublicOrigin

open Library Crypto

section Redemption

variable [RsaBackend] {κ : Type} {token : κ → Token} {challenge : κ → TokenChallenge}
  {history : List ((Nat × RedeemStep κ) × RedeemAnswer)} {initial origin : PublicOrigin}

/-- A call is a reservation followed by a verification unless the reservation returns. -/
theorem verifyAndRedeem_eq_steps (origin : PublicOrigin) (tick : Nat) (token : Token)
    (challenge : TokenChallenge) :
    origin.verifyAndRedeem tick token challenge =
      match origin.reserve tick token with
      | (.returned result, moved) => (result, moved)
      | (.reserved, moved) => (moved.verify token challenge, moved) := by
  unfold verifyAndRedeem reserve
  dsimp only
  split <;> rfl

/-- The verification reads the keys of the origin but not its cache. -/
theorem verify_replayCache (origin : PublicOrigin) (cache : ReplayCache) (token : Token)
    (challenge : TokenChallenge) :
    { origin with replayCache := cache }.verify token challenge = origin.verify token challenge := rfl

/-- A reservation is a call on the replay cache, and a verification is none. -/
def cacheEvent (token : κ → Token) :
    (Nat × RedeemStep κ) × RedeemAnswer → Option ((Nat × ReplayCache.Call) × ReplayCache.Answer)
  | ((tick, .reserve call), .reserved) => some ((tick, .checkAndAdd (token call).nonce), .flag true)
  | ((tick, .reserve call), .returned _) => some ((tick, .checkAndAdd (token call).nonce), .flag false)
  | ((_, .verify _), _) => none

omit [RsaBackend] in
/-- The reserved nonces are the accepted values of the cache. -/
theorem acceptedValues_cacheEvent (history : List ((Nat × RedeemStep κ) × RedeemAnswer)) :
    TimedSet.acceptedValues (history.filterMap (cacheEvent token)) = reservedNonces token history := by
  unfold TimedSet.acceptedValues reservedNonces
  rw [List.filterMap_filterMap]
  congr 1
  funext event
  rcases event with ⟨⟨tick, step⟩, answer⟩
  cases step <;> cases answer <;> rfl

omit [RsaBackend] in
/-- A reservation moves the cache and nothing else. -/
theorem reserve_origin (origin : PublicOrigin) (tick : Nat) (token : Token) :
    (origin.reserve tick token).2 =
      { origin with replayCache := (origin.replayCache.checkAndAdd tick token.nonce).2 } := by
  unfold reserve
  dsimp only
  split <;> rfl

omit [RsaBackend] in
/-- A reservation succeeds exactly when the cache accepts its nonce. -/
theorem cacheEvent_reserve (origin : PublicOrigin) (tick : Nat) (call : κ) :
    cacheEvent token ((tick, .reserve call), (origin.reserve tick (token call)).1) =
      some ((tick, .checkAndAdd (token call).nonce),
        .flag (origin.replayCache.checkAndAdd tick (token call).nonce).1) := by
  unfold reserve
  dsimp only
  split
  · next refused => rw [refused]; rfl
  · next accepted => rw [Bool.not_eq_false] at accepted; rw [accepted]; rfl

omit [RsaBackend] in
theorem cacheEvent_tick (past : (Nat × RedeemStep κ) × RedeemAnswer)
    (seen : (Nat × ReplayCache.Call) × ReplayCache.Answer) (found : cacheEvent token past = some seen) :
    seen.1.1 = past.1.1 := by
  rcases past with ⟨⟨tick, step⟩, answer⟩
  cases step <;> cases answer <;> cases found <;> rfl

/-- The redemptions drive the cache through a run of its own. -/
theorem runs_cache (runs : (redeemMachine token challenge).Runs redeemAllowed initial history origin) :
    ReplayCache.machine.Runs Machine.clocked initial.replayCache
      (history.filterMap (cacheEvent token)) origin.replayCache := by
  refine runs.project PublicOrigin.replayCache (cacheEvent token) ?_ ?_
  · intro history state ⟨tick, step⟩ legal seen found
    cases step with
    | verify call => cases found
    | reserve call =>
        change cacheEvent token ((tick, .reserve call), (state.reserve tick (token call)).1) = some seen
          at found
        rw [cacheEvent_reserve] at found
        cases found
        refine ⟨Machine.clocked_filterMap legal.1 cacheEvent_tick, ?_⟩
        change _ = (_, (state.reserve tick (token call)).2.replayCache)
        rw [reserve_origin]
        rfl
  · intro history state ⟨tick, step⟩ legal found
    cases step with
    | verify call => rfl
    | reserve call =>
        change cacheEvent token ((tick, .reserve call), (state.reserve tick (token call)).1) = none
          at found
        rw [cacheEvent_reserve] at found
        cases found

/-- The redemptions change nothing of the origin but its cache. -/
theorem runs_origin (runs : (redeemMachine token challenge).Runs redeemAllowed initial history origin) :
    origin = { initial with replayCache := origin.replayCache } := by
  induction runs with
  | start => rfl
  | @step history origin input before legal same =>
      rcases input with ⟨tick, step⟩
      cases step with
      | verify call => exact same
      | reserve call =>
          change (origin.reserve tick (token call)).2 =
            { initial with replayCache := (origin.reserve tick (token call)).2.replayCache }
          rw [reserve_origin]
          conv_lhs => rw [same]

/-- A result `true` comes from a verification of the call's own token. -/
theorem returned_true_verified
    (runs : (redeemMachine token challenge).Runs redeemAllowed initial history origin) {call : κ}
    (returned : Returned history call (.ok true)) :
    initial.verify (token call) (challenge call) = .ok true ∧ ∃ tick, ReservedAt history call tick := by
  obtain ⟨tick, member | member⟩ := returned <;> obtain ⟨before, after, rfl⟩ := List.append_of_mem member
  · obtain ⟨middle, -, -, answer, -⟩ := runs.split
    change RedeemAnswer.returned (.ok true) = (middle.reserve tick (token call)).1 at answer
    unfold reserve at answer
    dsimp only at answer
    split at answer <;> cases answer
  · obtain ⟨middle, earlier, legal, answer, -⟩ := runs.split
    have equal : Except.ok true = middle.verify (token call) (challenge call) :=
      RedeemAnswer.returned.inj answer
    rw [runs_origin earlier, verify_replayCache] at equal
    obtain ⟨time, reserved⟩ := legal.2.1
    exact ⟨equal.symm, time, List.mem_append_left _ reserved⟩

/-- Two reservations of one nonce by different calls lie at least the window apart. -/
theorem reserved_apart {windowSeconds maxSize : Nat}
    (fresh : initial.replayCache = { windowSeconds := windowSeconds, maxSize := maxSize })
    (runs : (redeemMachine token challenge).Runs redeemAllowed initial history origin)
    (few : (reservedNonces token history).toFinset.card ≤ maxSize) {left right : κ}
    (nonce : (token left).nonce = (token right).nonce) (different : left ≠ right)
    {leftTick rightTick : Nat} (leftReserved : ReservedAt history left leftTick)
    (rightReserved : ReservedAt history right rightTick) :
    leftTick + windowSeconds ≤ rightTick ∨ rightTick + windowSeconds ≤ leftTick := by
  have followed := runs_cache runs
  rw [fresh] at followed
  rw [← acceptedValues_cacheEvent] at few
  obtain ⟨entries, shadow, -⟩ := ReplayCache.runs_refine followed
  have apart {first second : κ} {firstTick secondTick : Nat}
      {before middle after : List ((Nat × RedeemStep κ) × RedeemAnswer)}
      (same : (token first).nonce = (token second).nonce)
      (split : history = before ++ ((firstTick, .reserve first), .reserved) ::
        (middle ++ ((secondTick, .reserve second), .reserved) :: after)) :
      firstTick + windowSeconds ≤ secondTick := by
    have cut : history.filterMap (cacheEvent token) = before.filterMap (cacheEvent token) ++
        ((firstTick, .checkAndAdd (token second).nonce), .flag true) ::
          (middle.filterMap (cacheEvent token) ++
            ((secondTick, .checkAndAdd (token second).nonce), .flag true) ::
              after.filterMap (cacheEvent token)) := by
      rw [split]
      simp [cacheEvent, same]
    rw [cut] at shadow few
    refine TimedSet.accepted_apart shadow ((Finset.card_le_card ?_).trans few)
    rw [← List.cons_append, ← List.append_assoc]
    exact TimedSet.acceptedValues_append _ _
  have events : ((leftTick, RedeemStep.reserve left), RedeemAnswer.reserved) ≠
      ((rightTick, RedeemStep.reserve right), RedeemAnswer.reserved) := by
    intro equal
    cases equal
    exact different rfl
  obtain ⟨before, middle, after, split | split⟩ :=
    split_of_two_mem leftReserved rightReserved events
  · exact .inl (apart nonce split)
  · exact .inr (apart nonce.symm split)

/-- Among the calls with one nonce whose reservations lie within the window, at most one returns
`true`, and its token passed the verification. -/
theorem verifyAndRedeem_once (config : OriginConfig) (keys : List BlindRsaPublicKey)
    (runs : (redeemMachine token challenge).Runs redeemAllowed (create config keys) history origin)
    (few : (reservedNonces token history).toFinset.card ≤ config.maxReplayCacheSize)
    {left right : κ} (nonce : (token left).nonce = (token right).nonce)
    (leftTrue : Returned history left (.ok true)) (_rightTrue : Returned history right (.ok true))
    {leftTick rightTick : Nat} (leftReserved : ReservedAt history left leftTick)
    (rightReserved : ReservedAt history right rightTick)
    (near : leftTick < rightTick + (create config keys).replayCache.windowSeconds ∧
      rightTick < leftTick + (create config keys).replayCache.windowSeconds) :
    left = right ∧ (create config keys).verify (token left) (challenge left) = .ok true := by
  refine ⟨?_, (returned_true_verified runs leftTrue).1⟩
  by_contra different
  have apart := reserved_apart (create_replayCache config keys) runs few nonce different
    leftReserved rightReserved
  rw [create_replayCache] at near
  change leftTick < rightTick + (config.redemptionWindow % 18446744073709551616).toNat ∧
    rightTick < leftTick + (config.redemptionWindow % 18446744073709551616).toNat at near
  omega

end Redemption

section Instances

/-- Two calls carry the token of zeros. -/
abbrev contendedMachine : Machine PublicOrigin (Nat × RedeemStep Bool) RedeemAnswer :=
  @redeemMachine zeroBackend.toRsaBackend Bool (fun _ => zeroToken) fun _ => zeroChallenge

/-- The second call comes between the reservation and the verification of the first one. -/
def contendedHistory : List ((Nat × RedeemStep Bool) × RedeemAnswer) :=
  [((0, .reserve false), .reserved),
    ((1, .reserve true), .returned (.error ⟨.tokenReplayed, "Token has already been redeemed"⟩)),
    ((2, .verify false), .returned (.ok true))]

abbrev contendedOrigin : PublicOrigin := @create zeroBackend.toRsaBackend zeroConfig [zeroKey]

theorem contended_runs :
    ∃ origin, contendedMachine.Runs redeemAllowed contendedOrigin contendedHistory origin := by
  have first := Machine.Runs.step (0, RedeemStep.reserve false)
    (Machine.Runs.start : contendedMachine.Runs redeemAllowed contendedOrigin [] contendedOrigin)
    (by simp [redeemAllowed, Machine.clocked])
  have second := first.step (1, .reserve true) (by simp [redeemAllowed, Machine.clocked])
  have third := second.step (2, .verify false) (by
    refine ⟨by simp [Machine.clocked], ⟨0, ?_⟩, by simp⟩
    exact List.mem_append_left _ (List.mem_singleton.mpr rfl))
  have verified : (contendedMachine.step
      (contendedMachine.step (contendedMachine.step contendedOrigin (0, .reserve false)).2
        (1, .reserve true)).2 (2, .verify false)).1 = .returned (.ok true) :=
    congrArg RedeemAnswer.returned (zeroToken_verified zeroConfig)
  rw [verified] at third
  exact ⟨_, third⟩

/-- The call that reserved the nonce returns true, the other one is refused, and no call besides the
first one with a reservation returns true. -/
theorem verifyAndRedeem_once_contended :
    (∃ origin, contendedMachine.Runs redeemAllowed contendedOrigin contendedHistory origin) ∧
    Returned contendedHistory false (.ok true) ∧
    Returned contendedHistory true (.error ⟨.tokenReplayed, "Token has already been redeemed"⟩) ∧
    (∀ call tick, Returned contendedHistory call (.ok true) → ReservedAt contendedHistory call tick →
      call = false) ∧
    @verify zeroBackend.toRsaBackend contendedOrigin zeroToken zeroChallenge = .ok true := by
  obtain ⟨origin, runs⟩ := contended_runs
  have returned : Returned contendedHistory false (.ok true) := ⟨2, .inr (by simp [contendedHistory])⟩
  have refused : Returned contendedHistory true
      (.error ⟨.tokenReplayed, "Token has already been redeemed"⟩) :=
    ⟨1, .inl (by simp [contendedHistory])⟩
  have reserved : ReservedAt contendedHistory false 0 := by simp [ReservedAt, contendedHistory]
  have once {call : Bool} {tick : Nat} (accepted : Returned contendedHistory call (.ok true))
      (held : ReservedAt contendedHistory call tick) :
      call = false ∧ @verify zeroBackend.toRsaBackend contendedOrigin zeroToken zeroChallenge =
        .ok true := by
    obtain rfl : tick = 0 := by
      simp only [ReservedAt, contendedHistory, List.mem_cons, List.not_mem_nil, or_false,
        Prod.mk.injEq, reduceCtorEq, and_false, or_self] at held
      exact held.1.1
    exact @verifyAndRedeem_once zeroBackend.toRsaBackend _ _ _ _ _ zeroConfig [zeroKey] runs
      (by decide) call false rfl accepted returned 0 0 held reserved (by decide)
  exact ⟨⟨origin, runs⟩, returned, refused, fun _ _ accepted held => (once accepted held).1,
    (once returned reserved).2⟩

end Instances

end PrivacyPass.PublicOrigin
