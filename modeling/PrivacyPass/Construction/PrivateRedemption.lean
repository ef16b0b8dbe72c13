import PrivacyPass.Construction.PrivateToken

/-
This file models concurrent redemptions at one private origin as interleaved steps.
-/

namespace PrivacyPass.PrivateOrigin

open Library Crypto

/-- An attempt asks for a replay, lets the issuer verify, marks the nonce and grants the request. -/
inductive AttemptStep (κ : Type) where
  | wouldBeReplay (call : κ)
  | verify (call : κ)
  | markRedeemed (call : κ)
  | grant (call : κ)
  deriving DecidableEq

inductive AttemptAnswer where
  | replay (value : Bool)
  | verified (result : Result Bool)
  | marked (fresh : Bool)
  | granted

variable [CurveBackend] {κ : Type}

/-- The attempts share the origin and the issuer. The history keeps the answer of the cache to a
mark, which the member function drops. -/
def attemptMachine (issuer : PrivateIssuer) (token : κ → Token) :
    Machine PrivateOrigin (Nat × AttemptStep κ) AttemptAnswer where
  step origin input :=
    match input.2 with
    | .wouldBeReplay call => (.replay (origin.wouldBeReplay (token call)), origin)
    | .verify call => (.verified (issuer.verify (token call)), origin)
    | .markRedeemed call =>
        (.marked (origin.replayCache.checkAndAdd input.1 (token call).nonce).1,
          origin.markRedeemed input.1 (token call))
    | .grant _ => (.granted, origin)

/-- The clock never goes back, and each attempt makes its steps in their order and once. -/
def attemptAllowed (history : List ((Nat × AttemptStep κ) × AttemptAnswer))
    (input : Nat × AttemptStep κ) : Prop :=
  Machine.clocked history input ∧ (∀ past ∈ history, past.1.2 ≠ input.2) ∧
    match input.2 with
    | .wouldBeReplay _ => True
    | .verify call => ∃ tick, ((tick, .wouldBeReplay call), .replay false) ∈ history
    | .markRedeemed call => ∃ tick, ((tick, .verify call), .verified (.ok true)) ∈ history
    | .grant call => ∃ tick fresh, ((tick, .markRedeemed call), .marked fresh) ∈ history

/-- The attempt marked its nonce at the given tick. -/
def MarkedAt (history : List ((Nat × AttemptStep κ) × AttemptAnswer)) (call : κ) (tick : Nat) : Prop :=
  ∃ fresh, ((tick, .markRedeemed call), .marked fresh) ∈ history

/-- The request of the attempt that marked its nonce at the given tick was granted. -/
def GrantedAt (history : List ((Nat × AttemptStep κ) × AttemptAnswer)) (call : κ) (tick : Nat) : Prop :=
  MarkedAt history call tick ∧ ∃ time, ((time, .grant call), .granted) ∈ history

/-- This function lists the nonces that the attempts have marked. -/
def markedNonces (token : κ → Token) (history : List ((Nat × AttemptStep κ) × AttemptAnswer)) :
    List Nonce :=
  history.filterMap fun event =>
    match event with
    | ((_, .markRedeemed call), _) => some (token call).nonce
    | _ => none

/-- No other attempt has marked the nonce since the attempt that is to mark it was told that it
would be no replay. -/
def MarksAlone (token : κ → Token) (history : List ((Nat × AttemptStep κ) × AttemptAnswer))
    (input : Nat × AttemptStep κ) : Prop :=
  match input.2 with
  | .markRedeemed call => ∀ before after tick,
      history = before ++ ((tick, .wouldBeReplay call), .replay false) :: after →
      ∀ other, other ≠ call → (token other).nonce = (token call).nonce →
        ∀ time, ¬ MarkedAt after other time
  | _ => True

end PrivacyPass.PrivateOrigin
