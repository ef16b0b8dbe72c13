import PrivacyPass.Construction.Lifecycle

/-
This file proves that the crypto library is started once and ended once, however the calls interleave.
-/

namespace PrivacyPass.Lifecycle

open Library

variable {κ : Type}

/-- The crypto library lives once: it is opened by one call, runs, and is closed by one call. -/
inductive Life where
  | fresh
  | opening
  | opened
  | running
  | closing
  | closed
  deriving DecidableEq

def Life.effects : Life → List Effect
  | fresh | opening => []
  | opened | running | closing => [.backendInit]
  | closed => [.backendInit, .backendShutdown]

/-- The variable has been set. -/
def Life.Started (life : Life) : Prop := life = .running ∨ life = .closing ∨ life = .closed

/-- The calls stand where the life of the crypto library asks for, and one call at a time acts on
it. -/
structure Represents (routine : κ → Routine) (state : State κ) (life : Life)
    (opener closer : Option κ) : Prop where
  fresh : state.flag = .fresh ↔ life = .fresh
  left : state.flag = .left → life.Started
  initialized : state.initialized = true ↔ life = .running
  someone : life ≠ .fresh → ∃ call, opener = some call
  opening : ∀ call, state.place call = .backendInit ↔ life = .opening ∧ opener = some call
  opened : ∀ call, state.place call = .store ↔ life = .opened ∧ opener = some call
  leaving : ∀ call, state.place call = .leaveOnce ↔
    state.flag = .entered ∧ life.Started ∧ opener = some call
  closing : ∀ call, state.place call = .backendShutdown ↔ life = .closing ∧ closer = some call
  shuts : ∀ call, state.place call = .exchange ∨ state.place call = .backendShutdown →
    routine call = .shutdown
  returned : ∀ call, routine call = .initializeLibrary → state.place call = .returned → state.flag = .left

variable {routine : κ → Routine} {state : State κ} {life : Life} {opener closer : Option κ}

theorem represents_start (routine : κ → Routine) : Represents routine (start routine) .fresh none none := by
  have entries (call : κ) : (start routine).place call = .callOnce ∨
      (start routine).place call = .exchange ∧ routine call = .shutdown := by
    cases found : routine call <;> simp [start, Routine.entry, found]
  constructor <;> grind [start, Life.Started]

/-- The flag stays entered from the first call on until the variable has been set. -/
theorem Represents.entered (represents : Represents routine state life opener closer)
    (born : life ≠ .fresh) (early : ¬ life.Started) : state.flag = .entered := by
  cases found : state.flag with
  | fresh => exact absurd (represents.fresh.mp found) born
  | entered => rfl
  | left => exact absurd (represents.left found) early

section Steps

variable [DecidableEq κ] {call : κ}

@[simp, grind =]
theorem State.move_flag (state : State κ) (call : κ) (place : Place) :
    (state.move call place).flag = state.flag := rfl

@[simp, grind =]
theorem State.move_initialized (state : State κ) (call : κ) (place : Place) :
    (state.move call place).initialized = state.initialized := rfl

@[simp, grind =]
theorem State.move_place (state : State κ) (call other : κ) (place : Place) :
    (state.move call place).place other = if other = call then place else state.place other := by
  simp [move, Function.update_apply]

/-- The first call at the flag is to open the library, and the calls behind it wait or return. -/
theorem Represents.callOnce (represents : Represents routine state life opener closer)
    (place : state.place call = .callOnce) : ∃ next by', next.effects = life.effects ∧
      Represents routine (Lifecycle.callOnce state call) next by' closer := by
  unfold Lifecycle.callOnce
  cases flag : state.flag with
  | fresh =>
      have unborn := represents.fresh.mp flag
      refine ⟨.opening, some call, by rw [unborn]; rfl, ?_⟩
      constructor <;> grind [Represents, Life.Started]
  | entered => exact ⟨life, opener, rfl, represents⟩
  | left =>
      have started := represents.left flag
      refine ⟨life, opener, rfl, ?_⟩
      constructor <;> grind [Represents, Life.Started]

/-- The opener starts the crypto library. -/
theorem Represents.backendInit (represents : Represents routine state life opener closer)
    (place : state.place call = .backendInit) : life = .opening ∧
      Represents routine (state.move call .store) .opened opener closer := by
  have opening := (represents.opening call).mp place
  refine ⟨opening.1, ?_⟩
  constructor <;> grind [Represents, Life.Started]

/-- The opener sets the variable. -/
theorem Represents.store (represents : Represents routine state life opener closer)
    (place : state.place call = .store) : life = .opened ∧
      Represents routine { state.move call .leaveOnce with initialized := true } .running opener closer := by
  have opened := (represents.opened call).mp place
  have entered := represents.entered (by simp [opened.1]) (by simp [opened.1, Life.Started])
  refine ⟨opened.1, ?_⟩
  constructor <;> grind [Represents, Life.Started]

/-- The opener lets the other calls pass. -/
theorem Represents.leaveOnce (represents : Represents routine state life opener closer)
    (place : state.place call = .leaveOnce) :
    Represents routine { state.move call .returned with flag := .left } life opener closer := by
  have leaving := (represents.leaving call).mp place
  constructor <;> grind [Represents, Life.Started]

/-- The call that clears the variable is to close the library, and the others return. -/
theorem Represents.exchange (represents : Represents routine state life opener closer)
    (place : state.place call = .exchange) : ∃ next by', next.effects = life.effects ∧
      Represents routine (Lifecycle.exchange state call) next opener by' := by
  have shuts := represents.shuts call (.inl place)
  unfold Lifecycle.exchange
  split
  · next set =>
      have running := represents.initialized.mp set
      refine ⟨.closing, some call, by rw [running]; rfl, ?_⟩
      constructor <;> grind [Represents, Life.Started]
  · refine ⟨life, closer, rfl, ?_⟩
    constructor <;> grind [Represents, Life.Started]

/-- The closer ends the crypto library. -/
theorem Represents.backendShutdown (represents : Represents routine state life opener closer)
    (place : state.place call = .backendShutdown) : life = .closing ∧
      Represents routine (state.move call .returned) .closed opener closer := by
  have closing := (represents.closing call).mp place
  have shuts := represents.shuts call (.inr place)
  refine ⟨closing.1, ?_⟩
  constructor <;> grind [Represents, Life.Started]

/-- Each step of a call is a step in the life of the crypto library or leaves it as it is. -/
theorem Represents.step (represents : Represents routine state life opener closer) (call : κ) :
    ∃ next opener' closer', Represents routine (machine.step state call).2 next opener' closer' ∧
      next.effects = life.effects ++ (machine.step state call).1.toList := by
  unfold machine
  dsimp only
  cases place : state.place call with
  | callOnce =>
      obtain ⟨next, opener', same, represented⟩ := represents.callOnce place
      exact ⟨next, opener', closer, represented, by simp [same]⟩
  | backendInit =>
      obtain ⟨rfl, represented⟩ := represents.backendInit place
      exact ⟨.opened, opener, closer, represented, rfl⟩
  | store =>
      obtain ⟨rfl, represented⟩ := represents.store place
      exact ⟨.running, opener, closer, represented, rfl⟩
  | leaveOnce => exact ⟨life, opener, closer, represents.leaveOnce place, by simp⟩
  | exchange =>
      obtain ⟨next, closer', same, represented⟩ := represents.exchange place
      exact ⟨next, opener, closer', represented, by simp [same]⟩
  | backendShutdown =>
      obtain ⟨rfl, represented⟩ := represents.backendShutdown place
      exact ⟨.closed, opener, closer, represented, rfl⟩
  | returned => exact ⟨life, opener, closer, represents, by simp⟩

/-- Every run is a part of one life. -/
theorem represents_of_runs {history : List (κ × Option Effect)}
    (runs : machine.Runs (fun _ _ => True) (start routine) history state) :
    ∃ life opener closer, Represents routine state life opener closer ∧
      effects history = life.effects := by
  refine @Machine.Runs.invariant _ _ _ machine _ _ _ _ (fun history state => ∃ life opener closer,
    Represents routine state life opener closer ∧ effects history = life.effects) ?_ ?_ runs
  · exact ⟨.fresh, none, none, represents_start routine, rfl⟩
  · rintro history state call ⟨life, opener, closer, represents, told⟩ -
    obtain ⟨next, opener', closer', represented, extended⟩ := represents.step call
    refine ⟨next, opener', closer', represented, ?_⟩
    rw [effects, List.filterMap_append, ← effects, told, extended]
    cases (machine.step state call).1 <;> rfl

/-- While a call has not returned, some call can go on: whoever waits at the flag waits for the
opener. -/
theorem Represents.mover (represents : Represents routine state life opener closer) {call : κ}
    (waits : state.place call ≠ .returned) :
    ∃ mover, (machine.step state mover).2.place mover ≠ state.place mover := by
  by_cases entered : state.flag = .entered
  · have born : life ≠ .fresh := by
      intro unborn
      rw [represents.fresh.mpr unborn] at entered
      cases entered
    obtain ⟨mover, opener⟩ := represents.someone born
    refine ⟨mover, ?_⟩
    cases stage : life with
    | fresh => exact absurd stage born
    | opening =>
        have place := (represents.opening mover).mpr ⟨stage, opener⟩
        simp [machine, place]
    | opened =>
        have place := (represents.opened mover).mpr ⟨stage, opener⟩
        simp [machine, place]
    | running | closing | closed =>
        have place := (represents.leaving mover).mpr ⟨entered, by simp [Life.Started, stage], opener⟩
        simp [machine, place]
  · refine ⟨call, ?_⟩
    cases place : state.place call with
    | callOnce =>
        cases flag : state.flag with
        | fresh => simp [machine, place, Lifecycle.callOnce, flag]
        | entered => exact absurd flag entered
        | left => simp [machine, place, Lifecycle.callOnce, flag]
    | exchange => cases set : state.initialized <;> simp [machine, place, Lifecycle.exchange, set]
    | returned => exact absurd place waits
    | backendInit | store | leaveOnce | backendShutdown => simp [machine, place]

/-- However the calls interleave, the crypto library is started at most once and ended at most once
after that, the variable is set only in between, a call of `initialize` returns only after the
start, and the calls never block one another for good. -/
theorem effects_of_runs {history : List (κ × Option Effect)}
    (runs : machine.Runs (fun _ _ => True) (start routine) history state) :
    effects history <+: [.backendInit, .backendShutdown] ∧
    (state.initialized = true → effects history = [.backendInit]) ∧
    (∀ call, routine call = .initializeLibrary → state.place call = .returned →
      .backendInit ∈ effects history) ∧
    ∀ call, state.place call ≠ .returned →
      ∃ mover, (machine.step state mover).2.place mover ≠ state.place mover := by
  obtain ⟨life, opener, closer, represents, told⟩ := represents_of_runs runs
  rw [told]
  refine ⟨?_, ?_, ?_, fun call waits => represents.mover waits⟩
  · cases life <;> decide
  · intro set
    rw [represents.initialized.mp set]
    rfl
  · intro call initializes returned
    rcases represents.left (represents.returned call initializes returned) with rfl | rfl | rfl <;>
      decide

end Steps

section Instances

/-- One call initializes the library, and the other one shuts it down. -/
def oneEach : Bool → Routine
  | false => .initializeLibrary
  | true => .shutdown

def oneHistory : List (Bool × Option Effect) :=
  [(false, none), (false, some .backendInit), (false, none), (true, none), (false, none),
    (true, some .backendShutdown)]

/-- The shutdown begins before the other call has returned. -/
theorem oneEach_runs : ∃ state, machine.Runs (fun _ _ => True) (start oneEach) oneHistory state ∧
    state.place false = .returned := by
  have fresh : machine.Runs (fun _ _ => True) (start oneEach) [] (start oneEach) := .start
  have opened := ((fresh.step false trivial).step false trivial).step false trivial
  exact ⟨_, ((opened.step true trivial).step false trivial).step true trivial, rfl⟩

theorem effects_of_runs_one : .backendInit ∈ effects oneHistory ∧
    effects oneHistory <+: [.backendInit, .backendShutdown] := by
  obtain ⟨state, runs, returned⟩ := oneEach_runs
  obtain ⟨once, -, initialized, -⟩ := effects_of_runs runs
  exact ⟨initialized false rfl returned, once⟩

end Instances

end PrivacyPass.Lifecycle
