import Mathlib.Data.List.Perm.Basic
import Mathlib.Tactic.Abel

/-
This file develops stocks with a limit and the accounts of what goes into them and comes out.
The items and the events are arbitrary.
-/

namespace PrivacyPass.Library.Stock

variable {α ε : Type}

/-- An item goes into the stock while there is room. -/
def put (limit : Nat) (stock : List α) (item : α) : List α :=
  if stock.length < limit then stock ++ [item] else stock

/-- The items that find the stock full do not go into it. -/
def surplus (limit : Nat) : (stock items : List α) → List α
  | _, [] => []
  | stock, item :: items =>
      (if stock.length = limit then [item] else []) ++ surplus limit (put limit stock item) items

variable {limit : Nat} {stock : List α}

theorem put_length_le (bounded : stock.length ≤ limit) (item : α) :
    (put limit stock item).length ≤ limit := by
  unfold put
  split
  · next room =>
      rw [List.length_append, List.length_singleton]
      omega
  · exact bounded

/-- A stock keeps its limit, whatever is put into it. -/
theorem foldl_put_length_le (bounded : stock.length ≤ limit) (items : List α) :
    (items.foldl (put limit) stock).length ≤ limit := by
  induction items generalizing stock with
  | nil => exact bounded
  | cons item items ih => exact ih (put_length_le bounded item)

/-- The stock and the surplus share the items, and no item is lost or doubled. -/
theorem foldl_put_perm (bounded : stock.length ≤ limit) (items : List α) :
    (items.foldl (put limit) stock ++ surplus limit stock items).Perm (stock ++ items) := by
  induction items generalizing stock with
  | nil => rw [List.foldl_nil, surplus]
  | cons item items ih =>
      have rest := ih (put_length_le bounded item)
      rw [List.foldl_cons, surplus]
      by_cases full : stock.length = limit
      · have kept : put limit stock item = stock := if_neg (by omega)
        rw [kept] at rest ⊢
        rw [if_pos full, List.singleton_append]
        exact List.perm_middle.trans ((rest.cons item).trans List.perm_middle.symm)
      · have stored : put limit stock item = stock ++ [item] := if_pos (by omega)
        rw [stored] at rest ⊢
        rw [if_neg full, List.nil_append]
        rwa [List.append_assoc, List.singleton_append] at rest

/-- The items that the events add up to since the last of them that clears the account. -/
def account (clears : ε → Bool) (entries : ε → List α) (events : List ε) : List α :=
  events.foldl (fun items event => if clears event then [] else items ++ entries event) []

theorem account_concat (clears : ε → Bool) (entries : ε → List α) (events : List ε) (event : ε) :
    account clears entries (events ++ [event]) =
      if clears event then [] else account clears entries events ++ entries event := by
  rw [account, List.foldl_concat]
  rfl

/-- Accounts that balance with a stock balance after an event that balances. -/
theorem balance_next {M : Type} [AddCommMonoid M] {stored returned dropped stock : M}
    {storedMore returnedMore droppedMore later : M}
    (balance : returned + stock + dropped = stored)
    (event : returnedMore + later + droppedMore = stock + storedMore) :
    (returned + returnedMore) + later + (dropped + droppedMore) = stored + storedMore := by
  calc (returned + returnedMore) + later + (dropped + droppedMore)
      = returned + dropped + (returnedMore + later + droppedMore) := by abel
    _ = returned + stock + dropped + storedMore := by
        rw [event]
        abel
    _ = stored + storedMore := by rw [balance]

end PrivacyPass.Library.Stock
