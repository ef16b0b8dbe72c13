import PrivacyPass.Construction.PrivateRedemption
import PrivacyPass.Proof.Crypto.Voprf
import PrivacyPass.Proof.Origin.Verify
import PrivacyPass.Proof.Replay.Cache

/-
This file proves when the attempts at a private origin grant a nonce at most once.
-/

namespace PrivacyPass.PrivateOrigin

open Library Crypto

section Redemption

variable [CurveBackend] {κ : Type} {issuer : PrivateIssuer} {token : κ → Token}
  {history : List ((Nat × AttemptStep κ) × AttemptAnswer)} {initial origin : PrivateOrigin}

/-- A check looks a nonce up in the cache, and a mark adds it there. -/
def cacheEvent (token : κ → Token) :
    (Nat × AttemptStep κ) × AttemptAnswer → Option ((Nat × ReplayCache.Call) × ReplayCache.Answer)
  | ((tick, .wouldBeReplay call), .replay value) =>
      some ((tick, .contains (token call).nonce), .flag value)
  | ((tick, .markRedeemed call), .marked fresh) =>
      some ((tick, .checkAndAdd (token call).nonce), .flag fresh)
  | _ => none

omit [CurveBackend] in
theorem cacheEvent_tick (past : (Nat × AttemptStep κ) × AttemptAnswer)
    (seen : (Nat × ReplayCache.Call) × ReplayCache.Answer) (found : cacheEvent token past = some seen) :
    seen.1.1 = past.1.1 := by
  rcases past with ⟨⟨tick, step⟩, answer⟩
  cases step <;> cases answer <;> cases found <;> rfl

omit [CurveBackend] in
/-- The cache accepts a nonce exactly in the marks that find it fresh. -/
theorem accepted_cacheEvent {time : Nat} {nonce : Nonce} :
    TimedSet.Accepted (history.filterMap (cacheEvent token)) time nonce ↔
      ∃ call, (token call).nonce = nonce ∧ ((time, .markRedeemed call), .marked true) ∈ history := by
  rw [TimedSet.Accepted, List.mem_filterMap]
  constructor
  · intro ⟨⟨⟨tick, step⟩, answer⟩, member, found⟩
    cases step <;> cases answer <;> cases found
    exact ⟨_, rfl, member⟩
  · rintro ⟨call, rfl, member⟩
    exact ⟨_, member, rfl⟩

omit [CurveBackend] in
theorem acceptedValues_cacheEvent (before after : List ((Nat × AttemptStep κ) × AttemptAnswer)) :
    (TimedSet.acceptedValues (before.filterMap (cacheEvent token))).toFinset ⊆
      (markedNonces token (before ++ after)).toFinset := by
  intro nonce member
  obtain ⟨event, inside, found⟩ := List.mem_filterMap.mp (List.mem_toFinset.mp member)
  obtain ⟨time, accepted⟩ : ∃ time, TimedSet.Accepted (before.filterMap (cacheEvent token)) time nonce := by
    rcases event with ⟨⟨time, call⟩, answer⟩
    rcases call with other | other | _ | _ <;> rcases answer with (_ | _) | _ | _ <;> cases found
    exact ⟨time, inside⟩
  obtain ⟨call, rfl, marked⟩ := accepted_cacheEvent.mp accepted
  exact List.mem_toFinset.mpr (List.mem_filterMap.mpr ⟨_, List.mem_append_left _ marked, rfl⟩)

/-- The attempts drive the cache through a run of its own. -/
theorem runs_cache (runs : (attemptMachine issuer token).Runs attemptAllowed initial history origin) :
    ReplayCache.machine.Runs Machine.clocked initial.replayCache
      (history.filterMap (cacheEvent token)) origin.replayCache := by
  refine runs.project PrivateOrigin.replayCache (cacheEvent token) ?_ ?_
  · intro history state ⟨tick, step⟩ legal seen found
    have clocked {call : ReplayCache.Call} :
        Machine.clocked (history.filterMap (cacheEvent token)) (tick, call) :=
      Machine.clocked_filterMap legal.1 cacheEvent_tick
    cases step <;> cases found
    · exact ⟨clocked, rfl⟩
    · exact ⟨clocked, rfl⟩
  · intro history state ⟨tick, step⟩ legal found
    cases step with
    | markRedeemed call => cases found
    | wouldBeReplay call => rfl
    | verify call => rfl
    | grant call => rfl

section Attempts

variable {config : OriginConfig} {keys : List VoprfPublicKey}
  {before after : List ((Nat × AttemptStep κ) × AttemptAnswer)}

/-- The cache of a reached origin has run from its creation within its size. -/
theorem runs_created
    (runs : (attemptMachine issuer token).Runs attemptAllowed (create config keys) history origin) :
    ReplayCache.machine.Runs Machine.clocked
      { windowSeconds := (create config keys).replayCache.windowSeconds
        maxSize := config.maxReplayCacheSize }
      (history.filterMap (cacheEvent token)) origin.replayCache := runs_cache runs

/-- A nonce that is no replay was marked fresh at least the window ago. -/
theorem marked_before_check {call other : κ} {tick time : Nat}
    (runs : (attemptMachine issuer token).Runs attemptAllowed (create config keys)
      (before ++ ((tick, .wouldBeReplay call), .replay false) :: after) origin)
    (few : (markedNonces token (before ++ ((tick, .wouldBeReplay call), .replay false) ::
      after)).toFinset.card ≤ config.maxReplayCacheSize)
    (nonce : (token other).nonce = (token call).nonce)
    (marked : ((time, .markRedeemed other), .marked true) ∈ before) :
    time + (create config keys).replayCache.windowSeconds ≤ tick := by
  obtain ⟨middle, earlier, legal, answer, -⟩ := runs.split
  by_contra young
  have fewer := (Finset.card_le_card (acceptedValues_cacheEvent before _)).trans few
  have accepted : TimedSet.Accepted (before.filterMap (cacheEvent token)) time (token call).nonce :=
    accepted_cacheEvent.mpr ⟨other, nonce, marked⟩
  have contained := ReplayCache.contains_of_accepted (runs_created earlier) fewer accepted
    (Nat.lt_of_not_le young)
    (@Machine.clocked_filterMap _ _ _ _ _ _ _ (.contains (token call).nonce) legal.1 cacheEvent_tick)
  have absent : false = middle.replayCache.contains (token call).nonce := AttemptAnswer.replay.inj answer
  rw [contained] at absent
  cases absent

/-- A mark that does not find its nonce fresh follows a fresh mark within the window. -/
theorem marked_before_mark {call : κ} {tick : Nat}
    (runs : (attemptMachine issuer token).Runs attemptAllowed (create config keys)
      (before ++ ((tick, .markRedeemed call), .marked false) :: after) origin)
    (few : (markedNonces token (before ++ ((tick, .markRedeemed call), .marked false) ::
      after)).toFinset.card ≤ config.maxReplayCacheSize) :
    ∃ other time, (token other).nonce = (token call).nonce ∧
      ((time, .markRedeemed other), .marked true) ∈ before ∧
      tick < time + (create config keys).replayCache.windowSeconds := by
  obtain ⟨middle, earlier, legal, answer, -⟩ := runs.split
  have fewer := (Finset.card_le_card (acceptedValues_cacheEvent before _)).trans few
  have refused : (middle.replayCache.checkAndAdd tick (token call).nonce).1 = false :=
    (AttemptAnswer.marked.inj answer).symm
  obtain ⟨time, accepted, young⟩ := (ReplayCache.checkAndAdd_eq_false_iff (runs_created earlier) fewer
    (@Machine.clocked_filterMap _ _ _ _ _ _ _ (.contains (token call).nonce) legal.1
      cacheEvent_tick)).mp refused
  obtain ⟨other, nonce, marked⟩ := accepted_cacheEvent.mp accepted
  exact ⟨other, time, nonce, marked, young⟩

/-- Each mark of a run follows the check and the verification of its attempt. -/
theorem check_before_mark {call : κ} {tick : Nat} {fresh : Bool}
    (runs : (attemptMachine issuer token).Runs attemptAllowed initial
      (before ++ ((tick, .markRedeemed call), .marked fresh) :: after) origin) :
    ∃ front back checked, before = front ++ ((checked, .wouldBeReplay call), .replay false) :: back ∧
      checked ≤ tick := by
  obtain ⟨marking, earlier, legal, -⟩ := runs.split
  obtain ⟨verified, member⟩ := legal.2.2
  obtain ⟨first, second, cut⟩ := List.append_of_mem member
  rw [cut] at earlier
  obtain ⟨verifying, -, allowed, -⟩ := earlier.split
  obtain ⟨checked, member⟩ := allowed.2.2
  obtain ⟨front, back, rfl⟩ := List.append_of_mem member
  have whole : before = front ++ ((checked, .wouldBeReplay call), .replay false) ::
      (back ++ ((verified, .verify call), .verified (.ok true)) :: second) := by
    rw [cut, List.append_assoc, List.cons_append]
  refine ⟨front, _, checked, whole, ?_⟩
  exact legal.1 ((checked, .wouldBeReplay call), .replay false) (by simp [whole])

/-- No attempt marks its nonce twice. -/
theorem mark_other {call other : κ} {tick time : Nat} {fresh found : Bool}
    (runs : (attemptMachine issuer token).Runs attemptAllowed initial
      (before ++ ((tick, .markRedeemed call), .marked fresh) :: after) origin)
    (marked : ((time, .markRedeemed other), .marked found) ∈ before) : other ≠ call := by
  obtain ⟨marking, -, legal, -⟩ := runs.split
  intro same
  exact legal.2.1 _ marked (congrArg AttemptStep.markRedeemed same)

/-- A mark before a mark that its attempt makes alone lies the window or more before it. -/
theorem mark_apart {call other : κ} {tick time : Nat} {fresh : Bool}
    (runs : (attemptMachine issuer token).Runs attemptAllowed (create config keys)
      (before ++ ((tick, .markRedeemed call), .marked fresh) :: after) origin)
    (few : (markedNonces token (before ++ ((tick, .markRedeemed call), .marked fresh) ::
      after)).toFinset.card ≤ config.maxReplayCacheSize)
    (alone : MarksAlone token before (tick, .markRedeemed call))
    (nonce : (token other).nonce = (token call).nonce)
    (marked : ((time, .markRedeemed other), .marked true) ∈ before) :
    time + (create config keys).replayCache.windowSeconds ≤ tick := by
  have different := mark_other runs marked
  obtain ⟨front, back, checked, whole, order⟩ := check_before_mark runs
  rw [whole] at marked
  rcases List.mem_append.mp marked with early | late
  · -- the check of the second attempt came after the first mark, so the cache had forgotten it
    rw [whole, List.append_assoc, List.cons_append] at runs few
    exact (marked_before_check runs few nonce early).trans order
  · rcases List.mem_cons.mp late with equal | late
    · cases equal
    · exact absurd ⟨true, late⟩ (alone front back checked whole other different nonce time)

/-- A mark that its attempt makes alone finds its nonce fresh. -/
theorem mark_fresh {call : κ} {tick : Nat} {fresh : Bool}
    (runs : (attemptMachine issuer token).Runs attemptAllowed (create config keys)
      (before ++ ((tick, .markRedeemed call), .marked fresh) :: after) origin)
    (few : (markedNonces token (before ++ ((tick, .markRedeemed call), .marked fresh) ::
      after)).toFinset.card ≤ config.maxReplayCacheSize)
    (alone : MarksAlone token before (tick, .markRedeemed call)) : fresh = true := by
  cases fresh with
  | true => rfl
  | false =>
      obtain ⟨other, time, nonce, marked, young⟩ := marked_before_mark runs few
      have apart := mark_apart runs few alone nonce marked
      omega

end Attempts

/-- Where every attempt marks its nonce alone, at most one of the attempts with one nonce that mark
it within the window is granted. -/
theorem granted_once (config : OriginConfig) (keys : List VoprfPublicKey)
    (runs : (attemptMachine issuer token).Runs attemptAllowed (create config keys) history origin)
    (few : (markedNonces token history).toFinset.card ≤ config.maxReplayCacheSize)
    (alone : Machine.Each (MarksAlone token) history) {left right : κ}
    (nonce : (token left).nonce = (token right).nonce) {leftTick rightTick : Nat}
    (leftGranted : GrantedAt history left leftTick) (rightGranted : GrantedAt history right rightTick)
    (near : leftTick < rightTick + (create config keys).replayCache.windowSeconds ∧
      rightTick < leftTick + (create config keys).replayCache.windowSeconds) : left = right := by
  by_contra different
  have apart {first second : κ} {firstTick secondTick : Nat} {firstFresh secondFresh : Bool}
      {before middle after : List ((Nat × AttemptStep κ) × AttemptAnswer)}
      (same : (token first).nonce = (token second).nonce)
      (split : history = before ++ ((firstTick, .markRedeemed first), .marked firstFresh) ::
        (middle ++ ((secondTick, .markRedeemed second), .marked secondFresh) :: after)) :
      firstTick + (create config keys).replayCache.windowSeconds ≤ secondTick := by
    subst split
    obtain rfl := mark_fresh runs few (alone _ _ _ rfl)
    rw [← List.cons_append, ← List.append_assoc] at runs few alone
    exact mark_apart runs few (alone _ _ _ rfl) same (by simp)
  obtain ⟨⟨leftFresh, leftMarked⟩, -⟩ := leftGranted
  obtain ⟨⟨rightFresh, rightMarked⟩, -⟩ := rightGranted
  have events : ((leftTick, AttemptStep.markRedeemed left), AttemptAnswer.marked leftFresh) ≠
      ((rightTick, .markRedeemed right), .marked rightFresh) := by
    intro equal
    cases equal
    exact different rfl
  obtain ⟨before, middle, after, split | split⟩ := split_of_two_mem leftMarked rightMarked events
  · have passed := apart nonce split
    omega
  · have passed := apart nonce.symm split
    omega

end Redemption

section Instances

/-- The private key 3 of the small group verifies the tokens with the output of its hash. -/
abbrev smallIssuer : PrivateIssuer :=
  @PrivateIssuer.create smallBackend.toEcBackend ⟨some 3⟩ (.zero 32, 0)

def smallToken : Token :=
  ⟨.voprfP384Sha384, .zero 32, .zero 32, .zero 32, List.replicate 48 0⟩

theorem smallToken_verified : @PrivateIssuer.verify smallBackend smallIssuer smallToken = .ok true := by
  have evaluated : (@PrivateIssuer.verify smallBackend smallIssuer smallToken).toOption = some true := by
    decide +kernel
  generalize @PrivateIssuer.verify smallBackend smallIssuer smallToken = result at evaluated
  cases result with
  | error error => cases evaluated
  | ok value => exact congrArg Except.ok (Option.some.inj evaluated)

abbrev smallConfig : OriginConfig := { issuerName := [0x69], originNames := [] }

abbrev smallMachine :
    Machine (@PrivateOrigin smallBackend.toEcBackend) (Nat × AttemptStep Bool) AttemptAnswer :=
  @attemptMachine smallBackend Bool smallIssuer fun _ => smallToken

abbrev smallOrigin : @PrivateOrigin smallBackend.toEcBackend :=
  @create smallBackend.toEcBackend smallConfig []

/-- The second attempt begins after the first one. -/
def orderedHistory : List ((Nat × AttemptStep Bool) × AttemptAnswer) :=
  [((0, .wouldBeReplay false), .replay false), ((0, .verify false), .verified (.ok true)),
    ((1, .markRedeemed false), .marked true), ((1, .grant false), .granted),
    ((2, .wouldBeReplay true), .replay true)]

/-- Both attempts ask for a replay before either of them marks the nonce. -/
def crossedHistory : List ((Nat × AttemptStep Bool) × AttemptAnswer) :=
  [((0, .wouldBeReplay false), .replay false), ((0, .wouldBeReplay true), .replay false),
    ((0, .verify false), .verified (.ok true)), ((0, .verify true), .verified (.ok true)),
    ((1, .markRedeemed false), .marked true), ((1, .markRedeemed true), .marked false),
    ((2, .grant false), .granted), ((2, .grant true), .granted)]

theorem smallMachine_verify (origin : @PrivateOrigin smallBackend.toEcBackend) (tick : Nat) (call : Bool) :
    smallMachine.step origin (tick, .verify call) = (.verified (.ok true), origin) :=
  congrArg (fun result => (AttemptAnswer.verified result, origin)) smallToken_verified

theorem smallMachine_next {history : List ((Nat × AttemptStep Bool) × AttemptAnswer)}
    {origin moved : @PrivateOrigin smallBackend.toEcBackend}
    (runs : smallMachine.Runs attemptAllowed smallOrigin history origin)
    (input : Nat × AttemptStep Bool) (answer : AttemptAnswer) (legal : attemptAllowed history input)
    (stepped : smallMachine.step origin input = (answer, moved)) :
    smallMachine.Runs attemptAllowed smallOrigin (history ++ [(input, answer)]) moved :=
  runs.next legal stepped

theorem ordered_runs :
    ∃ origin, smallMachine.Runs attemptAllowed smallOrigin orderedHistory origin := by
  have checked := smallMachine_next Machine.Runs.start (0, .wouldBeReplay false) (.replay false)
    (by simp [attemptAllowed, Machine.clocked]) rfl
  have verified := smallMachine_next checked (0, .verify false) (.verified (.ok true))
    (by simp [attemptAllowed, Machine.clocked]) (smallMachine_verify _ 0 false)
  have marked := smallMachine_next verified (1, .markRedeemed false) (.marked true)
    (by simp [attemptAllowed, Machine.clocked]) rfl
  have granted := smallMachine_next marked (1, .grant false) .granted
    (by simp [attemptAllowed, Machine.clocked]) rfl
  have refused := smallMachine_next granted (2, .wouldBeReplay true) (.replay true)
    (by simp [attemptAllowed, Machine.clocked]) rfl
  exact ⟨_, refused⟩

theorem crossed_runs :
    ∃ origin, smallMachine.Runs attemptAllowed smallOrigin crossedHistory origin := by
  have checked := smallMachine_next Machine.Runs.start (0, .wouldBeReplay false) (.replay false)
    (by simp [attemptAllowed, Machine.clocked]) rfl
  have rechecked := smallMachine_next checked (0, .wouldBeReplay true) (.replay false)
    (by simp [attemptAllowed, Machine.clocked]) rfl
  have verified := smallMachine_next rechecked (0, .verify false) (.verified (.ok true))
    (by simp [attemptAllowed, Machine.clocked]) (smallMachine_verify _ 0 false)
  have reverified := smallMachine_next verified (0, .verify true) (.verified (.ok true))
    (by simp [attemptAllowed, Machine.clocked]) (smallMachine_verify _ 0 true)
  have marked := smallMachine_next reverified (1, .markRedeemed false) (.marked true)
    (by simp [attemptAllowed, Machine.clocked]) rfl
  have remarked := smallMachine_next marked (1, .markRedeemed true) (.marked false)
    (by simp [attemptAllowed, Machine.clocked]) rfl
  have granted := smallMachine_next remarked (2, .grant false) .granted
    (by simp [attemptAllowed, Machine.clocked]) rfl
  have regranted := smallMachine_next granted (2, .grant true) .granted
    (by simp [attemptAllowed, Machine.clocked]) rfl
  exact ⟨_, regranted⟩

theorem ordered_marksAlone : Machine.Each (MarksAlone fun _ : Bool => smallToken) orderedHistory := by
  have only {call : Bool} {tick : Nat} {answer : AttemptAnswer}
      (member : ((tick, .markRedeemed call), answer) ∈ orderedHistory) : call = false := by
    simp only [orderedHistory, List.mem_cons, List.not_mem_nil, or_false, Prod.mk.injEq,
      AttemptStep.markRedeemed.injEq, reduceCtorEq, and_false, false_and, false_or] at member
    exact member.1.2
  intro before event after whole
  rcases event with ⟨⟨tick, step⟩, answer⟩
  cases step with
  | wouldBeReplay call => trivial
  | verify call => trivial
  | grant call => trivial
  | markRedeemed call =>
      intro front back checked cut other different nonce time marked
      obtain ⟨fresh, member⟩ := marked
      have later : ((tick, .markRedeemed call), answer) ∈ orderedHistory := by
        rw [whole]
        simp
      have earlier : ((time, .markRedeemed other), .marked fresh) ∈ orderedHistory := by
        rw [whole, cut]
        simp [member]
      exact different ((only earlier).trans (only later).symm)

/-- The first of the two attempts is granted, the second one sees a replay, and no attempt besides the
first one is granted. -/
theorem granted_once_ordered :
    (∃ origin, smallMachine.Runs attemptAllowed smallOrigin orderedHistory origin) ∧
    GrantedAt orderedHistory false 1 ∧ ((2, .wouldBeReplay true), .replay true) ∈ orderedHistory ∧
    ∀ attempt tick, GrantedAt orderedHistory attempt tick → attempt = false := by
  obtain ⟨origin, runs⟩ := ordered_runs
  have granted : GrantedAt orderedHistory false 1 := by simp [GrantedAt, MarkedAt, orderedHistory]
  refine ⟨⟨origin, runs⟩, granted, by simp [orderedHistory], ?_⟩
  intro attempt tick other
  obtain rfl : tick = 1 := by
    obtain ⟨⟨fresh, marked⟩, -⟩ := other
    simp only [orderedHistory, List.mem_cons, List.not_mem_nil, or_false, Prod.mk.injEq,
      AttemptStep.markRedeemed.injEq, reduceCtorEq, and_false, false_or] at marked
    exact marked.1.1
  exact @granted_once smallBackend _ _ _ _ _ smallConfig [] runs (by decide) ordered_marksAlone
    attempt false rfl 1 1 other granted (by decide)

/-- Both requests with one nonce are granted when both attempts ask before either of them marks. -/
theorem granted_twice :
    ∃ history origin, smallMachine.Runs attemptAllowed smallOrigin history origin ∧
      (markedNonces (fun _ => smallToken) history).toFinset.card ≤ smallConfig.maxReplayCacheSize ∧
      GrantedAt history false 1 ∧ GrantedAt history true 1 ∧
      1 < 1 + (@replayCache smallBackend.toEcBackend smallOrigin).windowSeconds := by
  obtain ⟨origin, runs⟩ := crossed_runs
  exact ⟨crossedHistory, origin, runs, by decide, by simp [GrantedAt, MarkedAt, crossedHistory],
    by simp [GrantedAt, MarkedAt, crossedHistory], by decide⟩

end Instances

end PrivacyPass.PrivateOrigin
