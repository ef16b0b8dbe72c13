import PrivacyPass.Construction.Origin

/-
This file models concurrent redemptions at one origin as interleaved steps.
-/

namespace PrivacyPass.PublicOrigin

open Library Crypto

/-- Each call first reserves its nonce under the cache's lock, and a reserved call verifies later. -/
inductive RedeemStep (κ : Type) where
  | reserve (call : κ)
  | verify (call : κ)
  deriving DecidableEq

/-- A call that finds its nonce in the cache returns at once. -/
inductive RedeemAnswer where
  | reserved
  | returned (result : Result Bool)

variable [RsaBackend] {κ : Type}

def reserve (origin : PublicOrigin) (tick : Nat) (token : Token) : RedeemAnswer × PublicOrigin :=
  let reserved := origin.replayCache.checkAndAdd tick token.nonce
  let moved := { origin with replayCache := reserved.2 }
  if reserved.1 = false then
    (.returned (.error ⟨.tokenReplayed, "Token has already been redeemed"⟩), moved)
  else (.reserved, moved)

/-- The calls share the origin, and each call carries its own token and challenge. -/
def redeemMachine (token : κ → Token) (challenge : κ → TokenChallenge) :
    Machine PublicOrigin (Nat × RedeemStep κ) RedeemAnswer where
  step origin input :=
    match input.2 with
    | .reserve call => origin.reserve input.1 (token call)
    | .verify call => (.returned (origin.verify (token call) (challenge call)), origin)

/-- The clock never goes back, a call reserves once, and it verifies once after it has reserved. -/
def redeemAllowed (history : List ((Nat × RedeemStep κ) × RedeemAnswer))
    (input : Nat × RedeemStep κ) : Prop :=
  Machine.clocked history input ∧
    match input.2 with
    | .reserve call => ∀ past ∈ history, past.1.2 ≠ .reserve call
    | .verify call => (∃ tick, ((tick, .reserve call), .reserved) ∈ history) ∧
        ∀ past ∈ history, past.1.2 ≠ .verify call

/-- The call reserved its nonce at the given tick. -/
def ReservedAt (history : List ((Nat × RedeemStep κ) × RedeemAnswer)) (call : κ) (tick : Nat) : Prop :=
  ((tick, .reserve call), .reserved) ∈ history

/-- The call has returned the given result from one of its steps. -/
def Returned (history : List ((Nat × RedeemStep κ) × RedeemAnswer)) (call : κ)
    (result : Result Bool) : Prop :=
  ∃ tick, ((tick, .reserve call), .returned result) ∈ history ∨
    ((tick, .verify call), .returned result) ∈ history

/-- This function lists the nonces that the calls have reserved. -/
def reservedNonces (token : κ → Token) (history : List ((Nat × RedeemStep κ) × RedeemAnswer)) :
    List Nonce :=
  history.filterMap fun event =>
    match event with
    | ((_, .reserve call), .reserved) => some (token call).nonce
    | _ => none

end PrivacyPass.PublicOrigin
