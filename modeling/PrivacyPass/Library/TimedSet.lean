import Mathlib.Data.Finset.Card
import Mathlib.Data.Finset.Image
import PrivacyPass.Library.Machine

/-
This file develops sets whose members carry the time of their arrival.
Members leave when their time has passed, or when too many members came no earlier.
-/

namespace PrivacyPass.Library.TimedSet

variable {ν : Type}

section Entries

/-- The members whose age is below the window. -/
def live (now window : Nat) (entries : Finset (Nat × ν)) : Finset (Nat × ν) :=
  entries.filter fun entry => now < entry.1 + window

/-- The members that came no earlier than the given time. -/
def since (time : Nat) (entries : Finset (Nat × ν)) : Finset (Nat × ν) :=
  entries.filter fun entry => time ≤ entry.1

/-- The latest members that fit the capacity, where members of one time stay or leave together. -/
def latest (capacity : Nat) (entries : Finset (Nat × ν)) : Finset (Nat × ν) :=
  entries.filter fun entry => (since entry.1 entries).card ≤ capacity

/-- No value carries two times. -/
def Timed (entries : Finset (Nat × ν)) : Prop :=
  ∀ left ∈ entries, ∀ right ∈ entries, left.2 = right.2 → left = right

theorem mem_live {now window : Nat} {entries : Finset (Nat × ν)} {entry : Nat × ν} :
    entry ∈ live now window entries ↔ entry ∈ entries ∧ now < entry.1 + window := by
  simp [live]

theorem mem_since {time : Nat} {entries : Finset (Nat × ν)} {entry : Nat × ν} :
    entry ∈ since time entries ↔ entry ∈ entries ∧ time ≤ entry.1 := by
  simp [since]

theorem mem_latest {capacity : Nat} {entries : Finset (Nat × ν)} {entry : Nat × ν} :
    entry ∈ latest capacity entries ↔
      entry ∈ entries ∧ (since entry.1 entries).card ≤ capacity := by
  simp [latest]

/-- A small enough set loses no member to the capacity. -/
theorem latest_eq_self {capacity : Nat} {entries : Finset (Nat × ν)}
    (fits : entries.card ≤ capacity) : latest capacity entries = entries := by
  rw [latest, Finset.filter_eq_self]
  intro entry _
  exact (Finset.card_filter_le entries _).trans fits

/-- A filter that keeps the members since a time does not change them. -/
theorem since_filter {time : Nat} {entries : Finset (Nat × ν)} {keeps : Nat × ν → Prop}
    [DecidablePred keeps] (kept : ∀ entry, time ≤ entry.1 → keeps entry) :
    since time (entries.filter keeps) = since time entries := by
  ext entry
  rw [mem_since, mem_since, Finset.mem_filter]
  constructor
  · intro ⟨⟨member, _⟩, recent⟩
    exact ⟨member, recent⟩
  · intro ⟨member, recent⟩
    exact ⟨⟨member, kept entry recent⟩, recent⟩

section Oldest

variable {entries : Finset (Nat × ν)} {front : Nat}

/-- The members after the oldest time are among those that do not have it. -/
theorem filter_after_oldest {time : Nat} (old : front ≤ time) :
    (entries.filter fun entry => time < entry.1) =
      (entries.filter fun entry => entry.1 ≠ front).filter fun entry => time < entry.1 := by
  ext entry
  simp only [Finset.mem_filter]
  constructor
  · intro ⟨member, young⟩
    exact ⟨⟨member, by omega⟩, young⟩
  · intro ⟨⟨member, _⟩, young⟩
    exact ⟨member, young⟩

/-- The members since a later time are among those that do not have the oldest time. -/
theorem since_filter_oldest {time : Nat} (later : front < time) :
    since time (entries.filter fun entry => entry.1 ≠ front) = since time entries :=
  since_filter fun entry recent => by omega

/-- A set that is too large loses the members with the oldest time to the capacity. -/
theorem latest_filter_oldest {capacity : Nat} (oldest : ∀ entry ∈ entries, front ≤ entry.1)
    (large : capacity < entries.card) :
    latest capacity entries = latest capacity (entries.filter fun entry => entry.1 ≠ front) := by
  ext entry
  rw [mem_latest, mem_latest, Finset.mem_filter, and_assoc]
  apply and_congr_right
  intro member
  by_cases same : entry.1 = front
  · have every : since entry.1 entries = entries := by
      rw [since, Finset.filter_eq_self, same]
      exact oldest
    rw [every]
    exact ⟨fun fits => absurd fits (Nat.not_le.mpr large), fun both => absurd same both.1⟩
  · have later := oldest entry member
    rw [since_filter_oldest (by omega)]
    exact ⟨fun fits => ⟨same, fits⟩, And.right⟩

end Oldest

theorem Timed.subset {few many : Finset (Nat × ν)} (timed : Timed many) (subset : few ⊆ many) :
    Timed few := fun left leftMember right rightMember equal =>
  timed left (subset leftMember) right (subset rightMember) equal

variable [DecidableEq ν]

/-- A set with one time for each value has as many members as values. -/
theorem Timed.card_image {entries : Finset (Nat × ν)} (timed : Timed entries) :
    (entries.image Prod.snd).card = entries.card :=
  Finset.card_image_of_injOn fun left leftMember right rightMember equal =>
    timed left leftMember right rightMember equal

theorem Timed.insert {entries : Finset (Nat × ν)} (timed : Timed entries) {time : Nat} {value : ν}
    (fresh : value ∉ entries.image Prod.snd) : Timed (insert (time, value) entries) := by
  have absent : ∀ entry ∈ entries, entry.2 ≠ value := fun entry member equal =>
    fresh (Finset.mem_image.mpr ⟨entry, member, equal⟩)
  intro left leftMember right rightMember equal
  rcases Finset.mem_insert.mp leftMember with rfl | leftMember <;>
    rcases Finset.mem_insert.mp rightMember with rfl | rightMember
  · rfl
  · exact absurd equal.symm (absent right rightMember)
  · exact absurd equal (absent left leftMember)
  · exact timed left leftMember right rightMember equal

end Entries

/-- The window bounds the age of a member, and the capacity bounds the number of members. -/
structure Limits where
  window : Nat
  capacity : Nat

inductive Call (ν : Type) where
  | checkAndAdd (value : ν)
  | contains (value : ν)
  | size
  | prune
  deriving DecidableEq

inductive Answer where
  | flag (value : Bool)
  | count (value : Nat)
  | done
  deriving DecidableEq

section Accepted

variable {history : List ((Nat × Call ν) × Answer)}

/-- The history has an accepted value at the given time. -/
def Accepted (history : List ((Nat × Call ν) × Answer)) (time : Nat) (value : ν) : Prop :=
  ((time, .checkAndAdd value), .flag true) ∈ history

/-- This function lists the accepted values in their order. -/
def acceptedValues (history : List ((Nat × Call ν) × Answer)) : List ν :=
  history.filterMap fun event =>
    match event with
    | ((_, .checkAndAdd value), .flag true) => some value
    | _ => none

theorem Accepted.mem_acceptedValues {time : Nat} {value : ν} (accepted : Accepted history time value) :
    value ∈ acceptedValues history :=
  List.mem_filterMap.mpr ⟨_, accepted, rfl⟩

end Accepted

section Prune

variable (limits : Limits)

/-- The pruning does nothing until the clock has passed the window once. -/
def prune (now : Nat) (entries : Finset (Nat × ν)) : Finset (Nat × ν) :=
  if now < limits.window then entries else latest limits.capacity (live now limits.window entries)

variable {limits}

theorem prune_subset {now : Nat} {entries : Finset (Nat × ν)} :
    prune limits now entries ⊆ entries := by
  intro entry member
  unfold prune at member
  split at member
  · exact member
  · exact (mem_live.mp (mem_latest.mp member).1).1

/-- The pruning at this time finds no more live members than the capacity. -/
def Roomy (limits : Limits) (now : Nat) (entries : Finset (Nat × ν)) : Prop :=
  now < limits.window ∨ (live now limits.window entries).card ≤ limits.capacity

theorem roomy_of_fits {now : Nat} {entries : Finset (Nat × ν)}
    (fits : entries.card ≤ limits.capacity) : Roomy limits now entries :=
  .inr ((Finset.card_filter_le entries _).trans fits)

/-- The pruning of a roomy set removes exactly the members whose time has passed. -/
theorem mem_prune {now : Nat} {entries : Finset (Nat × ν)} {entry : Nat × ν}
    (room : Roomy limits now entries) :
    entry ∈ prune limits now entries ↔ entry ∈ entries ∧ now < entry.1 + limits.window := by
  unfold prune
  split
  · next early =>
      constructor
      · intro member
        exact ⟨member, by omega⟩
      · exact And.left
  · next late => rw [latest_eq_self (room.resolve_left late), mem_live]

section Since

variable {now : Nat} {entries : Finset (Nat × ν)}

/-- The members of the current time are live. -/
theorem since_live {later window : Nat} (young : later < now + window) :
    since now (live later window entries) = since now entries :=
  since_filter fun entry recent => by omega

/-- A pruning keeps the live members of a time whose followers fit the capacity. -/
theorem mem_prune_iff {entry : Nat × ν} : entry ∈ prune limits now entries ↔
    entry ∈ entries ∧ (now < limits.window ∨
      now < entry.1 + limits.window ∧ (since entry.1 entries).card ≤ limits.capacity) := by
  unfold prune
  split
  · next early => simp [early]
  · next late =>
      rw [mem_latest, mem_live, and_assoc, or_iff_right late]
      refine and_congr_right fun _ => and_congr_right fun young => ?_
      rw [since_live young]

/-- The members of the last time stay together or leave together. -/
theorem since_latest {capacity : Nat} (bounded : ∀ entry ∈ entries, entry.1 ≤ now) :
    since now (latest capacity entries) =
      if (since now entries).card ≤ capacity then since now entries else ∅ := by
  have same : ∀ entry ∈ entries, now ≤ entry.1 → entry.1 = now := fun entry member recent =>
    Nat.le_antisymm (bounded entry member) recent
  ext entry
  rw [mem_since, mem_latest]
  split
  · next fits =>
      rw [mem_since]
      constructor
      · intro ⟨⟨member, _⟩, recent⟩
        exact ⟨member, recent⟩
      · intro ⟨member, recent⟩
        exact ⟨⟨member, by rwa [same entry member recent]⟩, recent⟩
  · next full =>
      constructor
      · intro ⟨⟨member, fits⟩, recent⟩
        rw [same entry member recent] at fits
        exact absurd fits full
      · intro member
        exact absurd member (Finset.notMem_empty entry)

theorem since_prune (bounded : ∀ entry ∈ entries, entry.1 ≤ now) (wide : 1 ≤ limits.window) :
    since now (prune limits now entries) =
      if now < limits.window ∨ (since now entries).card ≤ limits.capacity then since now entries
      else ∅ := by
  unfold prune
  by_cases early : now < limits.window
  · rw [if_pos early, if_pos (.inl early)]
  · have liveBounded : ∀ entry ∈ live now limits.window entries, entry.1 ≤ now :=
      fun entry member => bounded entry (mem_live.mp member).1
    rw [if_neg early, since_latest liveBounded, since_live (by omega)]
    simp [early]

end Since

end Prune

variable [DecidableEq ν]

section Machine

variable (limits : Limits)

def accept (now : Nat) (value : ν) (entries : Finset (Nat × ν)) : Bool × Finset (Nat × ν) :=
  if value ∈ (prune limits now entries).image Prod.snd then (false, prune limits now entries)
  else (true, insert (now, value) (prune limits now entries))

/-- The timed set answers each call by its members. -/
def machine : Machine (Finset (Nat × ν)) (Nat × Call ν) Answer where
  step entries input :=
    match input.2 with
    | .checkAndAdd value =>
        (.flag (accept limits input.1 value entries).1, (accept limits input.1 value entries).2)
    | .contains value => (.flag (decide (value ∈ entries.image Prod.snd)), entries)
    | .size => (.count (entries.image Prod.snd).card, entries)
    | .prune => (.done, prune limits input.1 entries)

variable {limits}

/-- A value is refused exactly when the pruned set has it. -/
theorem accept_eq_false {now : Nat} {value : ν} {entries : Finset (Nat × ν)} :
    (accept limits now value entries).1 = false ↔
      ∃ time, (time, value) ∈ prune limits now entries := by
  unfold accept
  split
  · next member =>
      obtain ⟨entry, kept, rfl⟩ := Finset.mem_image.mp member
      exact ⟨fun _ => ⟨entry.1, kept⟩, fun _ => rfl⟩
  · next absent =>
      constructor
      · intro refused
        cases refused
      · intro ⟨time, kept⟩
        exact absurd (Finset.mem_image.mpr ⟨(time, value), kept, rfl⟩) absent

theorem accept_of_true {now : Nat} {value : ν} {entries : Finset (Nat × ν)}
    (accepted : (accept limits now value entries).1 = true) :
    value ∉ (prune limits now entries).image Prod.snd ∧
      (accept limits now value entries).2 = insert (now, value) (prune limits now entries) := by
  unfold accept at accepted ⊢
  split at accepted
  · cases accepted
  · next absent => exact ⟨absent, by rw [if_neg absent]⟩

theorem accept_of_false {now : Nat} {value : ν} {entries : Finset (Nat × ν)}
    (refused : (accept limits now value entries).1 = false) :
    (accept limits now value entries).2 = prune limits now entries := by
  unfold accept at refused ⊢
  split at refused
  · next member => rw [if_pos member]
  · cases refused

section Twice

variable {now : Nat} {entries : Finset (Nat × ν)}

/-- A value that was just accepted is refused within the window, unless the clock has passed the
window once and the values of its time, itself included, exceed the capacity. -/
theorem accept_twice {later : Nat} {value : ν} (bounded : ∀ entry ∈ entries, entry.1 ≤ now)
    (wide : 1 ≤ limits.window) (room : 1 ≤ limits.capacity)
    (accepted : (accept limits now value entries).1 = true) (young : later < now + limits.window) :
    (accept limits later value (accept limits now value entries).2).1 = false ↔
      ¬ (limits.window ≤ later ∧ limits.capacity ≤ (since now entries).card ∧
        (now < limits.window ∨ (since now entries).card = limits.capacity)) := by
  obtain ⟨fresh, next⟩ := accept_of_true accepted
  have only : ∀ time, (time, value) ∈ insert (now, value) (prune limits now entries) → time = now := by
    intro time member
    rcases Finset.mem_insert.mp member with equal | member
    · exact congrArg Prod.fst equal
    · exact absurd (Finset.mem_image.mpr ⟨_, member, rfl⟩) fresh
  have absent : (now, value) ∉ since now (prune limits now entries) := fun member =>
    fresh (Finset.mem_image.mpr ⟨_, (Finset.mem_filter.mp member).1, rfl⟩)
  have count : (since now (insert (now, value) (prune limits now entries))).card =
      (since now (prune limits now entries)).card + 1 := by
    rw [since, Finset.filter_insert, if_pos (Nat.le_refl now)]
    exact Finset.card_insert_of_notMem absent
  have survives : (accept limits later value (accept limits now value entries).2).1 = false ↔
      (now, value) ∈ prune limits later (insert (now, value) (prune limits now entries)) := by
    rw [accept_eq_false, next]
    constructor
    · intro ⟨time, member⟩
      rwa [only time (prune_subset member)] at member
    · exact fun member => ⟨now, member⟩
  rw [survives, prune]
  by_cases early : later < limits.window
  · simp [early]
  · rw [if_neg early, mem_latest, mem_live, since_live young, count, since_prune bounded wide]
    simp only [Finset.mem_insert_self, young, and_self, true_and]
    split
    · next kept => omega
    · next dropped =>
        rw [Finset.card_empty]
        omega

end Twice

end Machine

section History

variable {limits : Limits} {history : List ((Nat × Call ν) × Answer)} {entries : Finset (Nat × ν)}

/-- The members of a reachable set were accepted at their times, and no value has two times. -/
structure Founded (history : List ((Nat × Call ν) × Answer)) (entries : Finset (Nat × ν)) : Prop where
  accepted : ∀ entry ∈ entries, Accepted history entry.1 entry.2
  timed : Timed entries

omit [DecidableEq ν] in
/-- No member is later than the clock. -/
theorem Founded.latest (founded : Founded history entries) {now : Nat}
    (legal : ∀ past ∈ history, past.1.1 ≤ now) : ∀ entry ∈ entries, entry.1 ≤ now :=
  fun entry member => legal _ (founded.accepted entry member)

omit [DecidableEq ν] in
theorem Founded.prune (founded : Founded history entries) {now : Nat}
    {event : (Nat × Call ν) × Answer} :
    Founded (history ++ [event]) (prune limits now entries) where
  accepted entry member := List.mem_append_left _ (founded.accepted entry (prune_subset member))
  timed := founded.timed.subset prune_subset

/-- Each step keeps the members founded in the history. -/
theorem Founded.step (founded : Founded history entries) (input : Nat × Call ν) :
    Founded (history ++ [(input, ((machine limits).step entries input).1)])
      ((machine limits).step entries input).2 := by
  have kept (event) : Founded (history ++ [event]) entries :=
    ⟨fun entry member => List.mem_append_left _ (founded.accepted entry member), founded.timed⟩
  rcases input with ⟨now, call⟩
  cases call with
  | checkAndAdd value =>
      change Founded (history ++ [(_, .flag (accept limits now value entries).1)])
        (accept limits now value entries).2
      cases outcome : (accept limits now value entries).1 with
      | false =>
          rw [accept_of_false outcome]
          exact founded.prune
      | true =>
          obtain ⟨fresh, equal⟩ := accept_of_true outcome
          rw [equal]
          refine ⟨?_, (founded.timed.subset prune_subset).insert fresh⟩
          intro entry member
          rcases Finset.mem_insert.mp member with rfl | member
          · exact List.mem_append_right _ (List.mem_singleton.mpr rfl)
          · exact founded.prune.accepted entry member
  | contains value => exact kept _
  | size => exact kept _
  | prune => exact founded.prune

theorem founded_of_runs (runs : (machine limits).Runs Machine.clocked ∅ history entries) :
    Founded history entries :=
  runs.invariant ⟨by simp, by simp [Timed]⟩ fun _ _ input founded _ => founded.step input

/-- The members of a founded set are no more than the accepted values. -/
theorem Founded.card_le (founded : Founded history entries) :
    entries.card ≤ (acceptedValues history).toFinset.card := by
  rw [← founded.timed.card_image]
  apply Finset.card_le_card
  intro value member
  obtain ⟨entry, inside, rfl⟩ := Finset.mem_image.mp member
  exact List.mem_toFinset.mpr (founded.accepted entry inside).mem_acceptedValues

/-- Each accepted value is a member until the clock has passed its time by the window. -/
def Retained (window : Nat) (history : List ((Nat × Call ν) × Answer))
    (entries : Finset (Nat × ν)) : Prop :=
  ∀ time value, Accepted history time value →
    (time, value) ∈ entries ∨ ∃ past ∈ history, time + window ≤ past.1.1

theorem acceptedValues_append (history tail : List ((Nat × Call ν) × Answer)) :
    (acceptedValues history).toFinset ⊆ (acceptedValues (history ++ tail)).toFinset := by
  intro value member
  rw [List.mem_toFinset] at member ⊢
  rw [acceptedValues, List.filterMap_append]
  exact List.mem_append_left _ member

omit [DecidableEq ν] in
/-- A pruning of a roomy set keeps every value that is not past the window. -/
theorem Retained.prune (retained : Retained limits.window history entries)
    {now : Nat} (room : Roomy limits now entries) {call : Call ν} {answer : Answer}
    {time : Nat} {value : ν} (accepted : Accepted history time value) :
    (time, value) ∈ prune limits now entries ∨
      ∃ past ∈ history ++ [((now, call), answer)], time + limits.window ≤ past.1.1 := by
  rcases retained time value accepted with member | ⟨past, earlier, passed⟩
  · by_cases young : now < time + limits.window
    · exact .inl ((mem_prune room).mpr ⟨member, young⟩)
    · exact .inr ⟨_, List.mem_append_right _ (List.mem_singleton.mpr rfl), Nat.le_of_not_lt young⟩
  · exact .inr ⟨past, List.mem_append_left _ earlier, passed⟩

/-- A call that prunes finds no more live members than the capacity. -/
def Spares (limits : Limits) (entries : Finset (Nat × ν)) (input : Nat × Call ν) : Prop :=
  match input.2 with
  | .checkAndAdd _ => Roomy limits input.1 entries
  | .prune => Roomy limits input.1 entries
  | _ => True

omit [DecidableEq ν] in
theorem spares_of_fits (fits : entries.card ≤ limits.capacity) (input : Nat × Call ν) :
    Spares limits entries input := by
  rcases input with ⟨now, call⟩
  cases call with
  | checkAndAdd value => exact roomy_of_fits fits
  | contains value => trivial
  | size => trivial
  | prune => exact roomy_of_fits fits

/-- Each step that spares the live members keeps the accepted values that are not past the window. -/
theorem Retained.step (retained : Retained limits.window history entries) {input : Nat × Call ν}
    (spares : Spares limits entries input) :
    Retained limits.window (history ++ [(input, ((machine limits).step entries input).1)])
      ((machine limits).step entries input).2 := by
  rcases input with ⟨now, call⟩
  intro time value accepted
  rcases List.mem_append.mp accepted with old | last
  · have kept : (time, value) ∈ entries ∨
        ∃ past ∈ history ++ [((now, call), ((machine limits).step entries (now, call)).1)],
          time + limits.window ≤ past.1.1 := by
      rcases retained time value old with member | ⟨past, earlier, passed⟩
      · exact .inl member
      · exact .inr ⟨past, List.mem_append_left _ earlier, passed⟩
    cases call with
    | checkAndAdd fresh =>
        apply (retained.prune spares old).imp_left
        intro member
        change _ ∈ (accept limits now fresh entries).2
        cases outcome : (accept limits now fresh entries).1 with
        | false => rwa [accept_of_false outcome]
        | true =>
            rw [(accept_of_true outcome).2]
            exact Finset.mem_insert_of_mem member
    | contains other => exact kept
    | size => exact kept
    | prune => exact retained.prune spares old
  · obtain ⟨same, answer⟩ := Prod.mk.inj (List.mem_singleton.mp last)
    cases same
    have outcome : (accept limits now value entries).1 = true := (Answer.flag.inj answer).symm
    left
    change _ ∈ (accept limits now value entries).2
    rw [(accept_of_true outcome).2]
    exact Finset.mem_insert_self _ _

/-- A run that accepts no more values than the capacity keeps those that are not past the window. -/
theorem retained_of_runs (runs : (machine limits).Runs Machine.clocked ∅ history entries)
    (few : (acceptedValues history).toFinset.card ≤ limits.capacity) :
    Retained limits.window history entries := by
  induction runs with
  | start =>
      intro time value accepted
      cases accepted
  | step input before legal ih =>
      have fewer := (Finset.card_le_card (acceptedValues_append _ _)).trans few
      exact (ih fewer).step (spares_of_fits ((founded_of_runs before).card_le.trans fewer) input)

section Room

/-- These values were accepted within the window before the given time. -/
def recentValues (window now : Nat) (history : List ((Nat × Call ν) × Answer)) : Finset ν :=
  (history.filterMap fun event =>
    match event with
    | ((time, .checkAndAdd value), .flag true) => if now < time + window then some value else none
    | _ => none).toFinset

/-- A checked value was accepted within the window, or the values of the window leave it room. -/
def HasRoom (limits : Limits) (history : List ((Nat × Call ν) × Answer)) (input : Nat × Call ν) : Prop :=
  match input.2 with
  | .checkAndAdd value => value ∈ recentValues limits.window input.1 history ∨
      (recentValues limits.window input.1 history).card < limits.capacity
  | _ => True

theorem mem_recentValues {window now : Nat} {value : ν} :
    value ∈ recentValues window now history ↔
      ∃ time, Accepted history time value ∧ now < time + window := by
  rw [recentValues, List.mem_toFinset, List.mem_filterMap]
  constructor
  · intro ⟨⟨⟨time, call⟩, answer⟩, member, found⟩
    rcases call with other | _ | _ | _ <;> rcases answer with (_ | _) | _ | _ <;>
      simp at found
    exact ⟨time, found.2 ▸ member, found.1⟩
  · intro ⟨time, accepted, young⟩
    exact ⟨_, accepted, if_pos young⟩

/-- The pruned values of a roomy set are those of the window. -/
theorem image_prune (founded : Founded history entries) (retained : Retained limits.window history entries)
    {now : Nat} (room : Roomy limits now entries) (legal : ∀ past ∈ history, past.1.1 ≤ now) :
    (prune limits now entries).image Prod.snd = recentValues limits.window now history := by
  ext value
  rw [Finset.mem_image, mem_recentValues]
  constructor
  · rintro ⟨entry, member, rfl⟩
    obtain ⟨inside, young⟩ := (mem_prune room).mp member
    exact ⟨entry.1, founded.accepted entry inside, young⟩
  · intro ⟨time, accepted, young⟩
    rcases retained time value accepted with member | ⟨past, earlier, passed⟩
    · exact ⟨(time, value), (mem_prune room).mpr ⟨member, young⟩, rfl⟩
    · have late := legal past earlier
      omega

/-- A step within the capacity stays within it exactly when it finds room. -/
theorem step_fits_iff (founded : Founded history entries)
    (retained : Retained limits.window history entries) (fits : entries.card ≤ limits.capacity)
    {input : Nat × Call ν} (legal : Machine.clocked history input) :
    ((machine limits).step entries input).2.card ≤ limits.capacity ↔ HasRoom limits history input := by
  have pruned : (prune limits input.1 entries).card ≤ limits.capacity :=
    (Finset.card_le_card prune_subset).trans fits
  rcases input with ⟨now, call⟩
  cases call with
  | checkAndAdd value =>
      have timed : Timed (prune limits now entries) := founded.timed.subset prune_subset
      change (accept limits now value entries).2.card ≤ _ ↔ _ ∈ recentValues _ _ _ ∨ _
      rw [← image_prune founded retained (roomy_of_fits fits) legal, timed.card_image, accept]
      split
      · next known => exact iff_of_true pruned (.inl known)
      · next fresh =>
          have absent : (now, value) ∉ prune limits now entries := fun member =>
            fresh (Finset.mem_image.mpr ⟨_, member, rfl⟩)
          rw [Finset.card_insert_of_notMem absent, or_iff_right fresh]
          exact Nat.succ_le_iff
  | contains value => exact iff_of_true fits trivial
  | size => exact iff_of_true fits trivial
  | prune => exact iff_of_true pruned trivial

end Room

/-- A roomy set refuses a value exactly when the value was accepted within the window before. -/
theorem Retained.accept_eq_false_iff (retained : Retained limits.window history entries)
    (founded : Founded history entries) {now : Nat} (room : Roomy limits now entries)
    (legal : ∀ past ∈ history, past.1.1 ≤ now) {value : ν} :
    (accept limits now value entries).1 = false ↔
      ∃ time, Accepted history time value ∧ now < time + limits.window := by
  rw [accept_eq_false, ← mem_recentValues, ← image_prune founded retained room legal, Finset.mem_image]
  constructor
  · intro ⟨time, member⟩
    exact ⟨(time, value), member, rfl⟩
  · rintro ⟨entry, member, rfl⟩
    exact ⟨entry.1, member⟩

/-- A value is refused exactly when it was accepted within the window before. -/
theorem accept_eq_false_iff (runs : (machine limits).Runs Machine.clocked ∅ history entries)
    (few : (acceptedValues history).toFinset.card ≤ limits.capacity) {now : Nat} {value : ν}
    (legal : ∀ past ∈ history, past.1.1 ≤ now) :
    (accept limits now value entries).1 = false ↔
      ∃ time, Accepted history time value ∧ now < time + limits.window := by
  have founded := founded_of_runs runs
  exact (retained_of_runs runs few).accept_eq_false_iff founded
    (roomy_of_fits (founded.card_le.trans few)) legal

/-- Two acceptances of one value lie at least the window apart. -/
theorem accepted_apart {before middle after : List ((Nat × Call ν) × Answer)} {first second : Nat}
    {value : ν}
    (runs : (machine limits).Runs Machine.clocked ∅ (before ++
      ((first, .checkAndAdd value), .flag true) :: (middle ++
        ((second, .checkAndAdd value), .flag true) :: after)) entries)
    (few : (acceptedValues (before ++ ((first, .checkAndAdd value), .flag true) ::
      middle)).toFinset.card ≤ limits.capacity) :
    first + limits.window ≤ second := by
  rw [← List.cons_append, ← List.append_assoc] at runs
  obtain ⟨reached, earlier, legal, answer, -⟩ := runs.split
  by_contra young
  have old : Accepted (before ++ ((first, .checkAndAdd value), .flag true) :: middle) first value :=
    List.mem_append_right _ List.mem_cons_self
  have refused := (accept_eq_false_iff earlier few legal).mpr ⟨first, old, Nat.lt_of_not_le young⟩
  have accepted : (accept limits second value reached).1 = true := (Answer.flag.inj answer).symm
  rw [refused] at accepted
  cases accepted

end History

end PrivacyPass.Library.TimedSet
