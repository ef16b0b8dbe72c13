import PrivacyPass.Library.Machine
import Mathlib.Logic.Function.Basic

/-
This file models the start and the end of the library as the steps of any number of calls.
-/

namespace PrivacyPass.Lifecycle

open Library

variable {κ : Type}

/-- A thread calls one of the two functions. -/
inductive Routine where
  | initializeLibrary
  | shutdown
  deriving DecidableEq

/-- A call stands in front of its next step. -/
inductive Place where
  | callOnce
  | backendInit
  | store
  | leaveOnce
  | exchange
  | backendShutdown
  | returned
  deriving DecidableEq

/-- One call enters the guarded part, and the others wait until it has left. -/
inductive OnceFlag where
  | fresh
  | entered
  | left
  deriving DecidableEq

/-- The crypto library is told to start and to end. -/
inductive Effect where
  | backendInit
  | backendShutdown
  deriving DecidableEq

/-- The calls share the flag and the variable. -/
structure State (κ : Type) where
  flag : OnceFlag
  initialized : Bool
  place : κ → Place

def Routine.entry : Routine → Place
  | initializeLibrary => .callOnce
  | shutdown => .exchange

def start (routine : κ → Routine) : State κ where
  flag := .fresh
  initialized := false
  place call := (routine call).entry

variable [DecidableEq κ]

def State.move (state : State κ) (call : κ) (place : Place) : State κ :=
  { state with place := Function.update state.place call place }

/-- A call that finds the flag entered stays where it is. -/
def callOnce (state : State κ) (call : κ) : State κ :=
  match state.flag with
  | .fresh => { state.move call .backendInit with flag := .entered }
  | .entered => state
  | .left => state.move call .returned

/-- Only a call that finds the variable set goes on. -/
def exchange (state : State κ) (call : κ) : State κ :=
  if state.initialized then { state.move call .backendShutdown with initialized := false }
  else state.move call .returned

/-- The scheduler picks the call that makes its next step. -/
def machine : Machine (State κ) κ (Option Effect) where
  step state call :=
    match state.place call with
    | .callOnce => (none, callOnce state call)
    | .backendInit => (some .backendInit, state.move call .store)
    | .store => (none, { state.move call .leaveOnce with initialized := true })
    | .leaveOnce => (none, { state.move call .returned with flag := .left })
    | .exchange => (none, exchange state call)
    | .backendShutdown => (some .backendShutdown, state.move call .returned)
    | .returned => (none, state)

/-- This function lists what the crypto library was told. -/
def effects (history : List (κ × Option Effect)) : List Effect := history.filterMap Prod.snd

end PrivacyPass.Lifecycle
