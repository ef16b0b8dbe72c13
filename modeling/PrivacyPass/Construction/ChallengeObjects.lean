import PrivacyPass.Construction.TokenChallenge
import PrivacyPass.Library.Memo

/-
This file models the variables of a program that hold challenges.
-/

namespace PrivacyPass.TokenChallenge

open Library

/-- Every field but the cache is public. -/
inductive Field where
  | tokenType (value : TokenType)
  | issuerName (value : Bytes)
  | redemptionContext (value : Option ChallengeDigest)
  | originInfo (value : List Bytes)
  deriving DecidableEq

/-- An assignment does not touch the cache. -/
def assign (challenge : TokenChallenge) : Field → TokenChallenge
  | .tokenType value => { challenge with tokenType := value }
  | .issuerName value => { challenge with issuerName := value }
  | .redemptionContext value => { challenge with redemptionContext := value }
  | .originInfo value => { challenge with originInfo := value }

/-- A copy of an object has its cache too, and `digest` may fill the cache of a constant object. -/
def objects [Crypto.HashBackend] :
    Machine (Nat → TokenChallenge) (Memo.Call Nat Field) (Option (Result ChallengeDigest)) where
  step memory call :=
    match call with
    | .change target field => (none, Function.update memory target ((memory target).assign field))
    | .copy target source => (none, Function.update memory target (memory source))
    | .read object =>
        (some (memory object).digest.1, Function.update memory object (memory object).digest.2)

end PrivacyPass.TokenChallenge
