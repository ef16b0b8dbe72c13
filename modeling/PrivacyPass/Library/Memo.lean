import Mathlib.Logic.Function.Basic
import PrivacyPass.Library.Machine

/-
This file develops variables that keep the result of a computation on their value.
The values, the results and the changes of a value are arbitrary.
-/

namespace PrivacyPass.Library.Memo

variable {α β ε κ ν : Type}

/-- A cell holds a value and may keep something beside it. -/
structure Cell (α β : Type) where
  value : α
  kept : Option β

/-- A cell without anything beside its value. -/
def Cell.fresh (value : α) : Cell α β := ⟨value, none⟩

/-- The first read that succeeds keeps its result, and each later read returns it. -/
def Cell.read (compute : α → Except ε β) (cell : Cell α β) : Except ε β × Cell α β :=
  match cell.kept with
  | some result => (.ok result, cell)
  | none =>
      match compute cell.value with
      | .ok result => (.ok result, { cell with kept := some result })
      | .error error => (.error error, cell)

/-- This read keeps the value that the first successful read has seen, and computes on it. -/
def Cell.readSource (compute : α → Except ε β) (cell : Cell α α) : Except ε β × Cell α α :=
  match cell.kept with
  | some source => (compute source, cell)
  | none =>
      match compute cell.value with
      | .ok result => (.ok result, { cell with kept := some cell.value })
      | .error error => (.error error, cell)

/-- A program changes the value of a variable, copies one variable to another, or reads one. -/
inductive Call (ν κ : Type) where
  | change (target : ν) (change : κ)
  | copy (target source : ν)
  | read (object : ν)

/-- A change leaves what is kept, and a copy takes it along. -/
def machine [DecidableEq ν] {γ : Type} (apply : α → κ → α)
    (read : Cell α γ → Except ε β × Cell α γ) :
    Machine (ν → Cell α γ) (Call ν κ) (Option (Except ε β)) where
  step memory call :=
    match call with
    | .change target change => (none, Function.update memory target
        { memory target with value := apply (memory target).value change })
    | .copy target source => (none, Function.update memory target (memory source))
    | .read object =>
        (some (read (memory object)).1, Function.update memory object (read (memory object)).2)

section Refinement

variable {compute : α → Except ε β}

/-- The kept result was computed on the kept source. -/
def Follows (compute : α → Except ε β) (cell : Cell α β) (image : Cell α α) : Prop :=
  cell.value = image.value ∧
    match image.kept with
    | none => cell.kept = none
    | some source => ∃ result, compute source = .ok result ∧ cell.kept = some result

theorem follows_fresh (value : α) : Follows compute (.fresh value) (.fresh value) := ⟨rfl, rfl⟩

/-- Both reads return the same result. -/
theorem Follows.read {cell : Cell α β} {image : Cell α α} (follows : Follows compute cell image) :
    (cell.read compute).1 = (image.readSource compute).1 ∧
      Follows compute (cell.read compute).2 (image.readSource compute).2 := by
  obtain ⟨value, kept⟩ := cell
  obtain ⟨image, source⟩ := image
  obtain ⟨rfl, kept⟩ := follows
  cases source with
  | none =>
      obtain rfl : _ = none := kept
      cases computed : compute value with
      | error error => simp [Cell.read, Cell.readSource, computed, Follows]
      | ok result => simp [Cell.read, Cell.readSource, computed, Follows]
  | some source =>
      obtain ⟨result, computed, rfl⟩ := kept
      simp [Cell.read, Cell.readSource, computed, Follows]

/-- Each variable follows its image, whatever has happened before. -/
def Mirrors (compute : α → Except ε β) (_history : List (Call ν κ × Option (Except ε β)))
    (memory : ν → Cell α β) (image : ν → Cell α α) : Prop :=
  ∀ object, Follows compute (memory object) (image object)

variable [DecidableEq ν] {apply : α → κ → α}
  {allowed : List (Call ν κ × Option (Except ε β)) → Call ν κ → Prop}

/-- A step keeps every variable with its image. -/
theorem step_follows {memory : ν → Cell α β} {image : ν → Cell α α}
    (follows : ∀ object, Follows compute (memory object) (image object)) (call : Call ν κ) :
    ((machine apply (Cell.read compute)).step memory call).1 =
        ((machine apply (Cell.readSource compute)).step image call).1 ∧
      ∀ object, Follows compute (((machine apply (Cell.read compute)).step memory call).2 object)
        (((machine apply (Cell.readSource compute)).step image call).2 object) := by
  have updated {target : ν} {cell : Cell α β} {picture : Cell α α}
      (close : Follows compute cell picture) (object : ν) :
      Follows compute (Function.update memory target cell object)
        (Function.update image target picture object) := by
    by_cases same : object = target
    · subst same
      rwa [Function.update_self, Function.update_self]
    · rw [Function.update_of_ne same, Function.update_of_ne same]
      exact follows object
  cases call with
  | change target change =>
      obtain ⟨value, kept⟩ := follows target
      exact ⟨rfl, updated ⟨congrArg (apply · change) value, kept⟩⟩
  | copy target source => exact ⟨rfl, updated (follows source)⟩
  | read object =>
      obtain ⟨same, close⟩ := (follows object).read
      exact ⟨congrArg some same, updated close⟩

/-- The results of a run are those of the sources that its variables have kept. -/
theorem run_follows {initial : ν → α} {history : List (Call ν κ × Option (Except ε β))}
    {memory : ν → Cell α β}
    (runs : (machine apply (Cell.read compute)).Runs allowed (fun object => .fresh (initial object))
      history memory) :
    ∃ image, (machine apply (Cell.readSource compute)).Runs allowed
        (fun object => .fresh (initial object)) history image ∧
      Mirrors compute history memory image := by
  exact runs.simulate (fun _ => follows_fresh _) fun _ _ _ call mirrors _ => step_follows mirrors call

end Refinement

section Sources

variable [DecidableEq ν] {apply : α → κ → α} {compute : α → Except ε β}
  {allowed : List (Call ν κ × Option (Except ε β)) → Call ν κ → Prop} {initial : ν → α}
  {history : List (Call ν κ × Option (Except ε β))} {image : ν → Cell α α}

/-- A read returns the result of the value exactly when the kept source has the same result. -/
theorem readSource_eq_iff {cell : Cell α α} : (cell.readSource compute).1 = compute cell.value ↔
    ∀ source, cell.kept = some source → compute cell.value = compute source := by
  obtain ⟨value, kept⟩ := cell
  cases kept with
  | none => cases computed : compute value <;> simp [Cell.readSource, computed]
  | some source => simp [Cell.readSource, eq_comm]

/-- A read keeps no source but the value. -/
theorem readSource_kept {cell : Cell α α} {source : α}
    (same : cell.kept = some source → cell.value = source)
    (kept : (cell.readSource compute).2.kept = some source) :
    (cell.readSource compute).2.value = source := by
  obtain ⟨value, earlier⟩ := cell
  cases earlier with
  | none => cases computed : compute value <;> simp_all [Cell.readSource]
  | some earlier => exact same kept

/-- The call changes no variable with a kept source. -/
def Untouched (apply : α → κ → α) (compute : α → Except ε β)
    (allowed : List (Call ν κ × Option (Except ε β)) → Call ν κ → Prop) (initial : ν → α)
    (past : List (Call ν κ × Option (Except ε β))) (call : Call ν κ) : Prop :=
  ∀ target change image, call = .change target change →
    (machine apply (Cell.readSource compute)).Runs allowed (fun object => .fresh (initial object))
      past image → (image target).kept = none

/-- Where no call changes a variable with a kept source, each kept source is the value. -/
theorem source_eq_value
    (runs : (machine apply (Cell.readSource compute)).Runs allowed
      (fun object => .fresh (initial object)) history image)
    (untouched : Machine.Each (Untouched apply compute allowed initial) history) (object : ν)
    {source : α} (kept : (image object).kept = some source) : (image object).value = source := by
  induction runs generalizing object source with
  | start => cases kept
  | @step history image call before legal ih =>
      obtain ⟨earlier, last⟩ := Machine.each_step.mp untouched
      have updated {target : ν} {cell : Cell α α}
          (same : cell.kept = some source → cell.value = source)
          (kept : (Function.update image target cell object).kept = some source) :
          (Function.update image target cell object).value = source := by
        by_cases equal : object = target
        · subst equal
          rw [Function.update_self] at kept ⊢
          exact same kept
        · rw [Function.update_of_ne equal] at kept ⊢
          exact ih earlier object kept
      cases call with
      | change target change =>
          have empty := last target change image rfl before
          refine updated (fun found => ?_) kept
          rw [empty] at found
          cases found
      | copy target origin => exact updated (fun found => ih earlier origin found) kept
      | read other => exact updated (readSource_kept fun found => ih earlier other found) kept

end Sources

end PrivacyPass.Library.Memo
