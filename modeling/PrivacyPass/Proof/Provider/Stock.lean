import Mathlib.Algebra.Order.Group.Multiset
import PrivacyPass.Construction.TokenProvider
import PrivacyPass.Library.Stock

/-
This file proves that the provider keeps account of the tokens in its stock.
-/

namespace PrivacyPass.TokenProvider

open Library

/-- The stock of one challenge. -/
def cached (provider : TokenProvider) (digest : ChallengeDigest) : List Token :=
  (provider.tokenCache.lookup digest).getD []

/-- The tokens of a batch that come when the stock holds as many tokens as it may. -/
def surplus (provider : TokenProvider) (digest : ChallengeDigest) : List Token → List Token
  | [] => []
  | token :: tokens =>
      (if provider.cachedTokenCount digest = provider.config.maxCachedTokens then [token] else []) ++
        (provider.storeTokens digest [token]).surplus digest tokens

section Calls

variable (provider : TokenProvider) {digest : ChallengeDigest}

theorem cachedTokenCount_eq (digest : ChallengeDigest) :
    provider.cachedTokenCount digest = (provider.cached digest).length := by
  unfold cachedTokenCount cached
  cases provider.tokenCache.lookup digest with
  | none => rfl
  | some cache => rfl

theorem cached_storeTokens (digest : ChallengeDigest) (tokens : List Token) :
    (provider.storeTokens digest tokens).cached digest =
      tokens.foldl (Stock.put provider.config.maxCachedTokens) (provider.cached digest) := by
  rw [cached, storeTokens, AList.lookup_insert, Option.getD_some]
  rfl

/-- The tokens of a batch find the stock full as they do in a stock with a limit. -/
theorem surplus_eq (digest : ChallengeDigest) (tokens : List Token) :
    provider.surplus digest tokens =
      Stock.surplus provider.config.maxCachedTokens (provider.cached digest) tokens := by
  induction tokens generalizing provider with
  | nil => rfl
  | cons token tokens ih =>
      rw [surplus, Stock.surplus, ih, cached_storeTokens, cachedTokenCount_eq]
      rfl

/-- The token that is handed out was the last one of the stock. -/
theorem cached_getCachedToken (digest : ChallengeDigest) :
    provider.cached digest =
      (provider.getCachedToken digest).2.cached digest ++
        (provider.getCachedToken digest).1.toList := by
  unfold getCachedToken
  cases found : provider.tokenCache.lookup digest with
  | none => simp
  | some cache =>
      dsimp only
      cases last : cache.getLast? with
      | none => simp
      | some token =>
          have whole : cache.dropLast ++ [token] = cache :=
            List.dropLast_append_getLast? token (Option.mem_def.mpr last)
          dsimp only
          rw [cached, found, Option.getD_some, Option.toList_some]
          split
          · next empty =>
              rw [List.isEmpty_iff.mp empty, List.nil_append] at whole
              rw [cached, AList.lookup_erase, Option.getD_none, List.nil_append, whole]
          · rw [cached, AList.lookup_insert, Option.getD_some, whole]

/-- The stock of one challenge is none of the business of the others. -/
theorem lookup_storeTokens {other : ChallengeDigest} (different : other ≠ digest)
    (tokens : List Token) :
    (provider.storeTokens other tokens).tokenCache.lookup digest =
      provider.tokenCache.lookup digest :=
  AList.lookup_insert_ne different.symm

theorem lookup_getCachedToken {other : ChallengeDigest} (different : other ≠ digest) :
    (provider.getCachedToken other).2.tokenCache.lookup digest =
      provider.tokenCache.lookup digest := by
  unfold getCachedToken
  split
  · rfl
  · split
    · rfl
    · dsimp only
      split
      · exact AList.lookup_erase_ne different.symm
      · exact AList.lookup_insert_ne different.symm

theorem config_getCachedToken (digest : ChallengeDigest) :
    (provider.getCachedToken digest).2.config = provider.config := by
  unfold getCachedToken
  split
  · rfl
  · split <;> rfl

end Calls

section Accounts

/-- A call names the challenge whose stock it uses, unless it clears all of them. -/
def StockCall.digest : StockCall → Option ChallengeDigest
  | .storeTokens digest _ => some digest
  | .getCachedToken digest => some digest
  | .cachedTokenCount digest => some digest
  | .clearCache => none

def clears (event : StockCall × StockAnswer) : Bool :=
  match event.1 with
  | .clearCache => true
  | _ => false

def storedBy (digest : ChallengeDigest) : StockCall → List Token
  | .storeTokens other tokens => if other = digest then tokens else []
  | _ => []

def returnedBy (digest : ChallengeDigest) : StockCall × StockAnswer → List Token
  | (.getCachedToken other, .token token) => if other = digest then token.toList else []
  | _ => []

def droppedBy (digest : ChallengeDigest) (provider : TokenProvider) : StockCall → List Token
  | .storeTokens other tokens => if other = digest then provider.surplus digest tokens else []
  | _ => []

/-- The tokens that were stored for the challenge since the last clearing. -/
def stored (digest : ChallengeDigest) (history : List (StockCall × StockAnswer)) : List Token :=
  Stock.account clears (fun event => storedBy digest event.1) history

/-- The tokens that were handed out for the challenge since the last clearing. -/
def returned (digest : ChallengeDigest) (history : List (StockCall × StockAnswer)) : List Token :=
  Stock.account clears (returnedBy digest) history

/-- The tokens that came for the challenge since the last clearing and found its stock full. -/
def dropped (initial : TokenProvider) (digest : ChallengeDigest)
    (history : List (StockCall × StockAnswer)) : List Token :=
  Stock.account (fun visit => clears visit.2) (fun visit => droppedBy digest visit.1 visit.2.1)
    (stockMachine.visits initial history)

/-- The tokens of the challenge are handed out, kept or dropped, and the stock keeps its limit. -/
structure Accounted (config : TokenProviderConfig) (digest : ChallengeDigest)
    (history : List (StockCall × StockAnswer)) (provider : TokenProvider) : Prop where
  config_eq : provider.config = config
  bounded : (provider.cached digest).length ≤ config.maxCachedTokens
  balance : (returned digest history : Multiset Token) + provider.cached digest +
    dropped { config := config } digest history = stored digest history

variable {config : TokenProviderConfig} {digest : ChallengeDigest}
  {history : List (StockCall × StockAnswer)} {provider : TokenProvider}

/-- The balance survives an event when the stock balances with the entries of the event. -/
theorem Accounted.next
    (runs : stockMachine.Runs (fun _ _ => True) { config := config } history provider)
    (accounted : Accounted config digest history provider) {event : StockCall × StockAnswer}
    (goesOn : clears event = false) {later : TokenProvider} (configured : later.config = config)
    (bounded : (later.cached digest).length ≤ config.maxCachedTokens)
    (balance : (returnedBy digest event : Multiset Token) + later.cached digest +
      droppedBy digest provider event.1 = provider.cached digest + storedBy digest event.1) :
    Accounted config digest (history ++ [event]) later := by
  refine ⟨configured, bounded, ?_⟩
  have balanced := Stock.balance_next accounted.balance balance
  unfold stored returned dropped at balanced ⊢
  rw [runs.visits_step]
  simp only [Stock.account_concat, goesOn, Bool.false_eq_true, if_false, ← Multiset.coe_add]
  exact balanced

/-- A clearing closes all accounts and empties the stock. -/
theorem accounted_clear
    (runs : stockMachine.Runs (fun _ _ => True) { config := config } history provider)
    {event : StockCall × StockAnswer} (cleared : clears event = true)
    (configured : provider.config = config) :
    Accounted config digest (history ++ [event]) provider.clearCache := by
  refine ⟨configured, Nat.zero_le _, ?_⟩
  unfold stored returned dropped
  rw [runs.visits_step]
  simp only [Stock.account_concat, cleared, if_true]
  rfl

/-- The stock and the accounts of a challenge stay as they are when a call is about another one. -/
theorem Accounted.other
    (runs : stockMachine.Runs (fun _ _ => True) { config := config } history provider)
    (accounted : Accounted config digest history provider) {event : StockCall × StockAnswer}
    (goesOn : clears event = false) {later : TokenProvider} (configured : later.config = config)
    (same : later.tokenCache.lookup digest = provider.tokenCache.lookup digest)
    (storedNone : storedBy digest event.1 = []) (returnedNone : returnedBy digest event = [])
    (droppedNone : droppedBy digest provider event.1 = []) :
    Accounted config digest (history ++ [event]) later := by
  have kept : later.cached digest = provider.cached digest := by rw [cached, same, ← cached]
  apply accounted.next runs goesOn configured
  · rw [kept]
    exact accounted.bounded
  · rw [storedNone, returnedNone, droppedNone, kept, Multiset.coe_nil, zero_add]

/-- A batch is divided between the stock and the dropped tokens. -/
theorem Accounted.store
    (runs : stockMachine.Runs (fun _ _ => True) { config := config } history provider)
    (accounted : Accounted config digest history provider) (tokens : List Token) :
    Accounted config digest (history ++ [(.storeTokens digest tokens, .done)])
      (provider.storeTokens digest tokens) := by
  have configured : (provider.storeTokens digest tokens).config = config := accounted.config_eq
  have limit : provider.config.maxCachedTokens = config.maxCachedTokens := by
    rw [accounted.config_eq]
  have divided := Stock.foldl_put_perm accounted.bounded tokens
  rw [← limit, ← cached_storeTokens, ← surplus_eq] at divided
  apply accounted.next runs rfl configured
  · rw [cached_storeTokens, limit]
    exact Stock.foldl_put_length_le accounted.bounded tokens
  · simp only [storedBy, droppedBy, returnedBy, if_true, Multiset.coe_nil, zero_add,
      Multiset.coe_add]
    exact Multiset.coe_eq_coe.mpr divided

/-- The token that leaves the stock is the one that is handed out. -/
theorem Accounted.take
    (runs : stockMachine.Runs (fun _ _ => True) { config := config } history provider)
    (accounted : Accounted config digest history provider) :
    Accounted config digest
      (history ++ [(.getCachedToken digest, .token (provider.getCachedToken digest).1)])
      (provider.getCachedToken digest).2 := by
  have split := cached_getCachedToken provider digest
  apply accounted.next runs rfl ((config_getCachedToken provider digest).trans accounted.config_eq)
  · have bounded := accounted.bounded
    rw [split, List.length_append] at bounded
    exact (Nat.le_add_right _ _).trans bounded
  · simp only [storedBy, droppedBy, returnedBy, if_true, Multiset.coe_nil, add_zero,
      Multiset.coe_add]
    rw [split]
    exact Multiset.coe_eq_coe.mpr List.perm_append_comm

/-- Every call keeps the balance of every challenge. -/
theorem accounted_step
    (runs : stockMachine.Runs (fun _ _ => True) { config := config } history provider)
    (accounted : Accounted config digest history provider) (call : StockCall) :
    Accounted config digest (history ++ [(call, (stockMachine.step provider call).1)])
      (stockMachine.step provider call).2 := by
  have configured := accounted.config_eq
  cases call with
  | storeTokens other tokens =>
      by_cases same : other = digest
      · subst same
        exact accounted.store runs tokens
      · exact accounted.other runs rfl configured (lookup_storeTokens provider same tokens)
          (if_neg same) rfl (if_neg same)
  | getCachedToken other =>
      have moved := (config_getCachedToken provider other).trans configured
      by_cases same : other = digest
      · subst same
        exact accounted.take runs
      · exact accounted.other runs rfl moved (lookup_getCachedToken provider same) rfl (if_neg same) rfl
  | cachedTokenCount other => exact accounted.other runs rfl configured rfl rfl rfl rfl
  | clearCache => exact accounted_clear runs rfl configured

/-- The balance holds after every run. -/
theorem accounted_of_runs (digest : ChallengeDigest)
    (runs : stockMachine.Runs (fun _ _ => True) { config := config } history provider) :
    Accounted config digest history provider := by
  induction runs with
  | start => exact ⟨rfl, Nat.zero_le _, rfl⟩
  | step call before legal ih => exact accounted_step before ih call

/-- A call that is about one challenge leaves the stocks of the others as they are. -/
theorem lookup_stockStep (provider : TokenProvider) {call : StockCall} (goesOn : call ≠ .clearCache)
    (other : call.digest ≠ some digest) :
    (stockMachine.step provider call).2.tokenCache.lookup digest =
      provider.tokenCache.lookup digest := by
  cases call with
  | storeTokens name tokens =>
      exact lookup_storeTokens provider (fun same => other (congrArg some same)) tokens
  | getCachedToken name =>
      exact lookup_getCachedToken provider fun same => other (congrArg some same)
  | cachedTokenCount name => rfl
  | clearCache => exact absurd rfl goesOn

end Accounts

/-- In every run the tokens of a challenge that were handed out since the last clearing, those that
are still in stock and those that came when the stock was full are together the tokens that were
stored for this challenge. The stock keeps its limit, and the calls about one challenge do not touch
the others. -/
theorem stock_accounted {config : TokenProviderConfig} {history : List (StockCall × StockAnswer)}
    {provider : TokenProvider}
    (runs : stockMachine.Runs (fun _ _ => True) { config := config } history provider) :
    (∀ digest, (returned digest history : Multiset Token) + provider.cached digest +
        dropped { config := config } digest history = stored digest history) ∧
      (∀ digest, provider.cachedTokenCount digest = (provider.cached digest).length ∧
        provider.cachedTokenCount digest ≤ config.maxCachedTokens) ∧
      ∀ call digest, call ≠ .clearCache → call.digest ≠ some digest →
        (stockMachine.step provider call).2.tokenCache.lookup digest =
          provider.tokenCache.lookup digest := by
  refine ⟨?_, ?_, ?_⟩
  · intro digest
    exact (accounted_of_runs digest runs).balance
  · intro digest
    rw [cachedTokenCount_eq]
    exact ⟨rfl, (accounted_of_runs digest runs).bounded⟩
  · intro call digest goesOn other
    exact lookup_stockStep provider goesOn other

/-- A stock for one token keeps the first of two tokens and hands it out, and the other is dropped. -/
theorem stock_accounted_single :
    let token (byte : UInt8) : Token := ⟨.blindRsa, .zero 32, .zero 32, .zero 32, [byte]⟩
    ∃ history provider,
      stockMachine.Runs (fun _ _ => True) { config := { maxCachedTokens := 1 } } history provider ∧
        returned (.zero 32) history = [token 1] ∧
        dropped { config := { maxCachedTokens := 1 } } (.zero 32) history = [token 2] ∧
        ∀ digest, (returned digest history : Multiset Token) + provider.cached digest +
          dropped { config := { maxCachedTokens := 1 } } digest history = stored digest history := by
  intro token
  have empty : stockMachine.Runs (fun _ _ => True) { config := { maxCachedTokens := 1 } } []
      { config := { maxCachedTokens := 1 } } := .start
  have runs := (empty.step (.storeTokens (.zero 32) [token 1, token 2]) trivial).step
    (.getCachedToken (.zero 32)) trivial
  exact ⟨_, _, runs, rfl, rfl, (stock_accounted runs).1⟩

end PrivacyPass.TokenProvider
