import PrivacyPass.Proof.Replay.Cache

/-
This file proves how long the replay cache refuses an accepted nonce on the steady clock, where the
tick of each call is a truncated time.
-/

namespace PrivacyPass.ReplayCache

open Library

/-- The call prunes, the clock has passed the window once, and the loop over the times leaves more
nonces than the size. -/
def EvictsBySize (cache : ReplayCache) (input : Nat × Call) : Prop :=
  match input.2 with
  | .checkAndAdd _ => cache.windowSeconds ≤ input.1 ∧
      cache.maxSize < (dropExpired (input.1 - cache.windowSeconds) cache).allNonces.card
  | .prune => cache.windowSeconds ≤ input.1 ∧
      cache.maxSize < (dropExpired (input.1 - cache.windowSeconds) cache).allNonces.card
  | _ => False

section Ticks

variable {limits : TimedSet.Limits} {history : List ((Nat × Call) × Answer)} {cache : ReplayCache}
  {entries : Finset (Nat × Nonce)}

/-- A pruning that evicts nothing by size finds no more live members than the capacity. -/
theorem Represents.roomy (represents : Represents cache entries) {now : Nat}
    (stays : ¬ (cache.windowSeconds ≤ now ∧
      cache.maxSize < (dropExpired (now - cache.windowSeconds) cache).allNonces.card)) :
    TimedSet.Roomy cache.limits now entries := by
  by_cases early : now < cache.windowSeconds
  · exact .inl early
  · have late := Nat.le_of_not_lt early
    have fits := Nat.le_of_not_lt fun large => stays ⟨late, large⟩
    rw [(dropExpired_live represents late).card_known] at fits
    exact .inr fits

theorem Represents.spares (represents : Represents cache entries) {input : Nat × Call}
    (stays : ¬ cache.EvictsBySize input) : TimedSet.Spares cache.limits entries input := by
  rcases input with ⟨now, call⟩
  cases call with
  | checkAndAdd nonce => exact represents.roomy stays
  | contains nonce => trivial
  | size => trivial
  | prune => exact represents.roomy stays

/-- A call that evicts nothing by size keeps every nonce within the window. -/
theorem KeepsWindow.step (keeps : KeepsWindow limits history cache) {input : Nat × Call}
    (legal : Machine.clocked history input) (stays : ¬ cache.EvictsBySize input) :
    KeepsWindow limits (history ++ [(input, (machine.step cache input).1)])
      (machine.step cache input).2 := by
  obtain ⟨entries, simulates, retained⟩ := keeps
  have spares := simulates.represents.spares stays
  obtain ⟨answer, next⟩ := step_simulates simulates legal
  rw [simulates.limits] at spares
  refine ⟨_, next, ?_⟩
  rw [answer]
  exact retained.step spares

/-- A check that evicts nothing by size refuses exactly the nonces that were accepted within the
window before. -/
theorem KeepsWindow.refuses_iff (keeps : KeepsWindow limits history cache) {now : Nat}
    {nonce : Nonce} (legal : ∀ past ∈ history, past.1.1 ≤ now)
    (stays : ¬ cache.EvictsBySize (now, .checkAndAdd nonce)) :
    (cache.checkAndAdd now nonce).1 = false ↔
      ∃ tick, TimedSet.Accepted history tick nonce ∧ now < tick + limits.window := by
  obtain ⟨entries, ⟨rfl, represents, founded⟩, retained⟩ := keeps
  have latest := founded.latest legal
  rw [(checkAndAdd_represents represents nonce latest).1]
  exact retained.accept_eq_false_iff founded (represents.spares stays) legal

end Ticks

section Clock

variable {windowSeconds maxSize : Nat} {history before after : List ((Nat × Call) × Answer)}
  {cache : ReplayCache} {nonce : Nonce} {time later : Nat}

/-- The history as the ticks of its times show it. -/
def inTicks (history : List ((Nat × Call) × Answer)) : List ((Nat × Call) × Answer) :=
  history.map fun event => ((currentTick event.1.1, event.1.2), event.2)

theorem currentTick_mono (order : time ≤ later) : currentTick time ≤ currentTick later :=
  Nat.div_le_div_right order

/-- Two times are less than a number of ticks apart exactly when the later time comes before the
window of the truncated earlier time ends. -/
theorem currentTick_lt_iff : currentTick later < currentTick time + windowSeconds ↔
    later + time % nanosPerTick < time + windowSeconds * nanosPerTick := by
  unfold currentTick nanosPerTick
  omega

theorem inTicks_le (legal : ∀ past ∈ history, past.1.1 ≤ later) :
    ∀ past ∈ inTicks history, past.1.1 ≤ currentTick later := by
  intro past member
  obtain ⟨event, inside, rfl⟩ := List.mem_map.mp member
  exact currentTick_mono (legal event inside)

theorem accepted_inTicks {tick : Nat} : TimedSet.Accepted (inTicks history) tick nonce ↔
    ∃ time, ((time, .checkAndAdd nonce), .flag true) ∈ history ∧ currentTick time = tick := by
  constructor
  · intro accepted
    obtain ⟨⟨⟨time, call⟩, answer⟩, member, same⟩ := List.mem_map.mp accepted
    obtain ⟨⟨rfl, rfl⟩, rfl⟩ : (currentTick time = tick ∧ call = .checkAndAdd nonce) ∧
        answer = .flag true := by simpa using same
    exact ⟨time, member, rfl⟩
  · rintro ⟨time, member, rfl⟩
    exact List.mem_map.mpr ⟨_, member, rfl⟩

/-- No call of the run drops a bucket for the size. -/
def NoSizeEviction (windowSeconds maxSize : Nat) (history : List ((Nat × Call) × Answer)) : Prop :=
  Machine.Throughout clockMachine Machine.clocked
    { windowSeconds := windowSeconds, maxSize := maxSize }
    (fun cache input => ¬ cache.EvictsBySize (currentTick input.1, input.2)) history

/-- A run on the clock that evicts nothing by size keeps every nonce within the window. -/
theorem keepsWindow_of_runs
    (runs : clockMachine.Runs Machine.clocked { windowSeconds := windowSeconds, maxSize := maxSize }
      history cache) (stays : NoSizeEviction windowSeconds maxSize history) :
    KeepsWindow ⟨windowSeconds, maxSize⟩ (inTicks history) cache := by
  refine @Machine.Runs.invariant_throughout _ _ _ _ _ _ _ _ _
    (fun history cache => KeepsWindow ⟨windowSeconds, maxSize⟩ (inTicks history) cache)
    (keepsWindow_empty windowSeconds maxSize) ?_ runs stays
  intro history cache input keeps legal stays
  rw [inTicks, List.map_append]
  exact keeps.step (inTicks_le legal) stays

/-- A check in such a run is refused exactly when an earlier acceptance of the nonce lies less than
the window of ticks before. -/
theorem answer_eq_false_iff {answer : Answer}
    (runs : clockMachine.Runs Machine.clocked { windowSeconds := windowSeconds, maxSize := maxSize }
      (before ++ ((later, .checkAndAdd nonce), answer) :: after) cache)
    (stays : NoSizeEviction windowSeconds maxSize
      (before ++ ((later, .checkAndAdd nonce), answer) :: after)) :
    answer = .flag false ↔ ∃ time, ((time, .checkAndAdd nonce), .flag true) ∈ before ∧
      currentTick later < currentTick time + windowSeconds := by
  obtain ⟨middle, earlier, legal, same, -⟩ := runs.split
  have keeps := keepsWindow_of_runs earlier stays.front
  have refused := keeps.refuses_iff (inTicks_le legal)
    (stays before _ after middle rfl earlier)
  change answer = .flag (middle.checkAndAdd (currentTick later) nonce).1 at same
  rw [same, TimedSet.Answer.flag.injEq, refused]
  constructor
  · intro ⟨tick, accepted, young⟩
    obtain ⟨time, member, rfl⟩ := accepted_inTicks.mp accepted
    exact ⟨time, member, young⟩
  · intro ⟨time, member, young⟩
    exact ⟨currentTick time, accepted_inTicks.mpr ⟨time, member, rfl⟩, young⟩

/-- An accepted nonce is refused for the whole window of real time exactly when it is not checked
in the last part of the window, which is as long as the acceptance was past its tick. -/
theorem refused_for_window_iff
    (runs : clockMachine.Runs Machine.clocked { windowSeconds := windowSeconds, maxSize := maxSize }
      (before ++ ((time, .checkAndAdd nonce), .flag true) :: after) cache)
    (stays : NoSizeEviction windowSeconds maxSize
      (before ++ ((time, .checkAndAdd nonce), .flag true) :: after)) :
    (∀ later answer, ((later, .checkAndAdd nonce), answer) ∈ after →
        later < time + windowSeconds * nanosPerTick → answer = .flag false) ↔
      ∀ later answer, ((later, .checkAndAdd nonce), answer) ∈ after →
        later < time + windowSeconds * nanosPerTick →
        later + time % nanosPerTick < time + windowSeconds * nanosPerTick := by
  obtain ⟨-, -, ordered, -⟩ := runs.split
  constructor
  · intro refused later answer member young
    obtain ⟨middle, rest, rfl⟩ := List.append_of_mem member
    have answered := refused later answer member young
    rw [← List.cons_append, ← List.append_assoc] at runs stays
    obtain ⟨-, -, legal, -⟩ := runs.split
    obtain ⟨past, counted, close⟩ := (answer_eq_false_iff runs stays).mp answered
    suffices order : past ≤ time from currentTick_lt_iff.mp
      (close.trans_le (Nat.add_le_add_right (currentTick_mono order) windowSeconds))
    rcases List.mem_append.mp counted with earlier | accepted
    · exact ordered _ earlier
    rcases List.mem_cons.mp accepted with same | between
    · cases same
      exact Nat.le_refl time
    · -- a second acceptance would be one of the refused checks
      have order := legal _ counted
      have again := refused past (.flag true) (List.mem_append_left _ between) (order.trans_lt young)
      cases again
  · intro early later answer member young
    obtain ⟨middle, rest, rfl⟩ := List.append_of_mem member
    rw [← List.cons_append, ← List.append_assoc] at runs stays
    refine (answer_eq_false_iff runs stays).mpr ⟨time, ?_, ?_⟩
    · exact List.mem_append_right _ List.mem_cons_self
    · exact currentTick_lt_iff.mpr (early later answer member young)

end Clock

section Instances

/-- A nonce is checked in the last tenth of the first second and at the start of the next one. -/
def lateHistory : List ((Nat × Call) × Answer) :=
  [((900000000, .checkAndAdd firstNonce), .flag true)] ++
    [((1000000000, .checkAndAdd firstNonce), .flag true)]

def acceptedAt (elapsed : Nat) : ReplayCache :=
  ({ windowSeconds := 1, maxSize := 10 : ReplayCache }.checkAndAdd (currentTick elapsed) firstNonce).2

theorem acceptedAt_runs (elapsed : Nat) : clockMachine.Runs Machine.clocked
    { windowSeconds := 1, maxSize := 10 }
    [((elapsed, .checkAndAdd firstNonce), (clockMachine.step { windowSeconds := 1, maxSize := 10 }
      (elapsed, .checkAndAdd firstNonce)).1)] (acceptedAt elapsed) :=
  Machine.Runs.step (elapsed, TimedSet.Call.checkAndAdd firstNonce) .start (by simp [Machine.clocked])

theorem acceptedAt_stays {elapsed : Nat} (early : currentTick elapsed < 1) (answer : Answer) :
    NoSizeEviction 1 10 [((elapsed, .checkAndAdd firstNonce), answer)] :=
  (Machine.throughout_step .start).mpr
    ⟨Machine.throughout_nil, fun evicts => absurd evicts.1 (Nat.not_le.mpr early)⟩

/-- A nonce that is accepted at the end of a second is accepted again after a tenth of the window. -/
theorem refused_for_window_late :
    ¬ ∀ (windowSeconds maxSize : Nat) (before after : List ((Nat × Call) × Answer))
      (cache : ReplayCache) (nonce : Nonce) (time later : Nat) (answer : Answer), 1 ≤ windowSeconds →
      clockMachine.Runs Machine.clocked { windowSeconds := windowSeconds, maxSize := maxSize }
        (before ++ ((time, .checkAndAdd nonce), .flag true) :: after) cache →
      NoSizeEviction windowSeconds maxSize
        (before ++ ((time, .checkAndAdd nonce), .flag true) :: after) →
      ((later, .checkAndAdd nonce), answer) ∈ after →
      later < time + windowSeconds * nanosPerTick → answer = .flag false := by
  intro refused
  have first := acceptedAt_runs 900000000
  have second := first.step (1000000000, .checkAndAdd firstNonce) (by simp [Machine.clocked])
  have stays : NoSizeEviction 1 10 lateHistory :=
    (Machine.throughout_step first).mpr
      ⟨acceptedAt_stays (by decide) _, fun evicts => absurd evicts.2 (by decide)⟩
  have refusal := refused 1 10 [] _ _ firstNonce 900000000 1000000000 (.flag true) (by decide)
    second stays (List.mem_singleton.mpr rfl) (by decide)
  cases refusal

/-- A nonce that is accepted on the tick is refused after half of the window. -/
theorem refused_for_window_whole :
    TimedSet.Answer.flag ((acceptedAt 0).checkAndAdd (currentTick 500000000) firstNonce).1 =
      .flag false := by
  have first := acceptedAt_runs 0
  have second := first.step (500000000, .checkAndAdd firstNonce) (by simp [Machine.clocked])
  have stays : NoSizeEviction 1 10 ([((0, .checkAndAdd firstNonce), .flag true)] ++
      [((500000000, .checkAndAdd firstNonce),
        .flag ((acceptedAt 0).checkAndAdd (currentTick 500000000) firstNonce).1)]) :=
    (Machine.throughout_step first).mpr
      ⟨acceptedAt_stays (by decide) _, fun evicts => absurd evicts.1 (by decide)⟩
  have window := @refused_for_window_iff 1 10 [] _ _ firstNonce 0 second stays
  refine window.mpr ?_ 500000000 _ (List.mem_singleton.mpr rfl) (by decide)
  intro later answer _ young
  exact young

end Instances

end PrivacyPass.ReplayCache
