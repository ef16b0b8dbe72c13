import Mathlib.Data.Finset.Card
import Mathlib.Data.List.Infix

/-
This file develops queues that lose entries at the front and gain entries at the back.
The entries and their keys are arbitrary.
-/

namespace PrivacyPass.Library

variable {α κ : Type}

/-- Each entry of the front part stands in a relation to the entries that follow it. -/
def Trailed (holds : α → List α → Prop) : List α → List α → Prop
  | [], _ => True
  | entry :: rest, tail => holds entry (rest ++ tail) ∧ Trailed holds rest tail

namespace Trailed

variable {holds other : α → List α → Prop} {front middle tail : List α}

/-- The relation of a longer front part is the relation of its two halves. -/
theorem append : Trailed holds (front ++ middle) tail ↔
    Trailed holds front (middle ++ tail) ∧ Trailed holds middle tail := by
  induction front with
  | nil => exact (and_iff_right trivial).symm
  | cons entry rest ih => rw [List.cons_append, Trailed, Trailed, ih, List.append_assoc, and_assoc]

/-- A relation that implies another one at each entry may be replaced, and the tail may change. -/
theorem imp {tail' : List α}
    (implies : ∀ entry rest, (entry :: rest) <:+ front → holds entry (rest ++ tail) →
      other entry (rest ++ tail')) (trailed : Trailed holds front tail) :
    Trailed other front tail' := by
  induction front with
  | nil => trivial
  | cons entry rest ih =>
      obtain ⟨here, later⟩ := trailed
      exact ⟨implies entry rest List.suffix_rfl here,
        ih (fun next more suffix => implies next more (suffix.trans (List.suffix_cons entry rest)))
          later⟩

/-- An entry that is not in the tail belongs to the front part. -/
theorem of_split {before after : List α} {entry : α} (trailed : Trailed holds front tail)
    (split : front ++ tail = before ++ entry :: after) (outside : entry ∉ tail) :
    holds entry after := by
  induction front generalizing before with
  | nil =>
      rw [List.nil_append] at split
      exact absurd (split ▸ List.mem_append_right _ List.mem_cons_self) outside
  | cons first rest ih =>
      cases before with
      | nil =>
          obtain ⟨rfl, rfl⟩ := List.cons.inj split
          exact trailed.1
      | cons head before => exact ih trailed.2 (List.cons.inj split).2

end Trailed

variable [DecidableEq κ] {key : α → κ}

/-- A fresh key at the back makes up for the key at the front. -/
theorem card_append_erase {entry last : α} {middle : List α}
    (distinct : ((entry :: middle).map key).Nodup) (fresh : key last ∉ (entry :: middle).map key) :
    (((middle ++ [last]).map key).toFinset.erase (key entry)).card =
      ((entry :: middle).map key).toFinset.card := by
  rw [List.map_cons, List.nodup_cons] at distinct
  rw [List.map_cons, List.mem_cons, not_or] at fresh
  have outside : key entry ∉ ((middle ++ [last]).map key).toFinset := by
    simpa [Ne.symm fresh.1] using distinct.1
  rw [Finset.erase_eq_of_notMem outside, List.map_cons, List.toFinset_cons,
    Finset.card_insert_of_notMem (by simpa using distinct.1), List.map_append, List.toFinset_append,
    Finset.union_comm, List.map_singleton, List.toFinset_cons, List.toFinset_nil,
    insert_empty_eq, Finset.singleton_union,
    Finset.card_insert_of_notMem (by simpa using fresh.2)]

end PrivacyPass.Library
