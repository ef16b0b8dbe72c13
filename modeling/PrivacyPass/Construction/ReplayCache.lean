import Mathlib.Data.List.AList
import Mathlib.Data.Finset.Card
import Mathlib.Data.Finset.SDiff
import PrivacyPass.Construction.Types
import PrivacyPass.Library.TimedSet

/-
This file models the time-bucketed replay cache.
-/

namespace PrivacyPass

open Library

/-- Each bucket keeps the nonces that arrived during one tick. -/
structure ReplayCache where
  buckets : AList fun _ : Nat => Finset Nonce := ∅
  allNonces : Finset Nonce := ∅
  bucketOrder : List Nat := []
  windowSeconds : Nat
  maxSize : Nat

def defaultMaxReplayCacheSize : Nat := 100000

namespace ReplayCache

/-- Both loops of the pruning drop the front bucket with its nonces. -/
def dropFront (cache : ReplayCache) : ReplayCache :=
  match cache.bucketOrder with
  | [] => cache
  | front :: rest =>
      match cache.buckets.lookup front with
      | some nonces => { cache with
          allNonces := cache.allNonces \ nonces
          buckets := cache.buckets.erase front
          bucketOrder := rest }
      | none => { cache with bucketOrder := rest }

/-- A loop of the pruning runs while there is a front bucket and the condition holds. -/
def dropBuckets (condition : ReplayCache → Nat → Bool) : List Nat → ReplayCache → ReplayCache
  | [], cache => cache
  | front :: rest, cache =>
      if condition cache front then dropBuckets condition rest cache.dropFront else cache

def dropExpired (cutoff : Nat) (cache : ReplayCache) : ReplayCache :=
  dropBuckets (fun _ front => front ≤ cutoff) cache.bucketOrder cache

def dropOversized (cache : ReplayCache) : ReplayCache :=
  dropBuckets (fun cache _ => cache.allNonces.card > cache.maxSize) cache.bucketOrder cache

def pruneExpired (nowTick : Nat) (cache : ReplayCache) : ReplayCache :=
  if nowTick < cache.windowSeconds then cache
  else dropOversized (dropExpired (nowTick - cache.windowSeconds) cache)

/-- A tick without a bucket gets an empty one. -/
def bucket (cache : ReplayCache) (tick : Nat) : Finset Nonce :=
  (cache.buckets.lookup tick).getD ∅

def addToBucket (tick : Nat) (nonce : Nonce) (cache : ReplayCache) : ReplayCache :=
  { cache with
    allNonces := insert nonce cache.allNonces
    bucketOrder := if cache.bucket tick = ∅ then cache.bucketOrder ++ [tick] else cache.bucketOrder
    buckets := cache.buckets.insert tick (insert nonce (cache.bucket tick)) }

def checkAndAdd (tick : Nat) (nonce : Nonce) (cache : ReplayCache) : Bool × ReplayCache :=
  let pruned := cache.pruneExpired tick
  if nonce ∈ pruned.allNonces then (false, pruned)
  else (true, pruned.addToBucket tick nonce)

def contains (nonce : Nonce) (cache : ReplayCache) : Bool := decide (nonce ∈ cache.allNonces)

def prune (tick : Nat) (cache : ReplayCache) : ReplayCache := cache.pruneExpired tick

def size (cache : ReplayCache) : Nat := cache.allNonces.card

/-- A program may call the four members of the class. -/
abbrev Call := TimedSet.Call Nonce

abbrev Answer := TimedSet.Answer

/-- The tick counter is read once in each call. -/
def machine : Machine ReplayCache (Nat × Call) Answer where
  step cache input :=
    match input.2 with
    | .checkAndAdd nonce =>
        let outcome := cache.checkAndAdd input.1 nonce
        (.flag outcome.1, outcome.2)
    | .contains nonce => (.flag (cache.contains nonce), cache)
    | .size => (.count cache.size, cache)
    | .prune => (.done, cache.prune input.1)

/-- The steady clock counts nanoseconds, and a tick is a whole second. -/
def nanosPerTick : Nat := 1000000000

/-- The duration since the construction is truncated. -/
def currentTick (elapsed : Nat) : Nat := elapsed / nanosPerTick

/-- The calls arrive at times of the steady clock. -/
def clockMachine : Machine ReplayCache (Nat × Call) Answer where
  step cache input := machine.step cache (currentTick input.1, input.2)

end ReplayCache
end PrivacyPass
