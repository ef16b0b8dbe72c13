import Mathlib.Data.List.Basic

/-
This file develops machines that answer one input after another.
The states, the inputs and the answers are arbitrary, and a run may forbid an input by its history.
-/

namespace PrivacyPass.Library

variable {σ ι ω : Type}

/-- A machine answers each input and moves to its next state. -/
structure Machine (σ ι ω : Type) where
  step : σ → ι → ω × σ

/-- The history of a run lists each input with its answer, and the history decides what may follow. -/
inductive Machine.Runs (machine : Machine σ ι ω) (allowed : List (ι × ω) → ι → Prop)
    (initial : σ) : List (ι × ω) → σ → Prop
  | start : Runs machine allowed initial [] initial
  | step {history : List (ι × ω)} {state : σ} (input : ι)
      (before : Runs machine allowed initial history state) (legal : allowed history input) :
      Runs machine allowed initial (history ++ [(input, (machine.step state input).1)])
        (machine.step state input).2

/-- Two different members of a list stand in it one before the other. -/
theorem split_of_two_mem {α : Type} {list : List α} {left right : α} (leftMember : left ∈ list)
    (rightMember : right ∈ list) (different : left ≠ right) :
    ∃ before middle after, list = before ++ left :: (middle ++ right :: after) ∨
      list = before ++ right :: (middle ++ left :: after) := by
  obtain ⟨before, after, rfl⟩ := List.append_of_mem leftMember
  rcases List.mem_append.mp rightMember with member | member
  · obtain ⟨front, middle, rfl⟩ := List.append_of_mem member
    exact ⟨front, middle, after, .inr (by simp)⟩
  · rcases List.mem_cons.mp member with equal | member
    · exact absurd equal.symm different
    · obtain ⟨middle, back, rfl⟩ := List.append_of_mem member
      exact ⟨before, middle, back, .inl rfl⟩

namespace Machine

variable {machine : Machine σ ι ω} {allowed : List (ι × ω) → ι → Prop} {initial : σ}
  {history : List (ι × ω)} {state : σ}

/-- A run goes on with the answer and the state of its next step. -/
theorem Runs.next {input : ι} {answer : ω} {moved : σ}
    (before : Runs machine allowed initial history state) (legal : allowed history input)
    (stepped : machine.step state input = (answer, moved)) :
    Runs machine allowed initial (history ++ [(input, answer)]) moved := by
  have after := before.step input legal
  rw [stepped] at after
  exact after

/-- A property of histories and states that holds at the start and survives each step always holds. -/
theorem Runs.invariant {holds : List (ι × ω) → σ → Prop} (start : holds [] initial)
    (preserved : ∀ history state input, holds history state → allowed history input →
      holds (history ++ [(input, (machine.step state input).1)]) (machine.step state input).2)
    (runs : Runs machine allowed initial history state) : holds history state := by
  induction runs with
  | start => exact start
  | step input before legal ih => exact preserved _ _ input ih legal

/-- Each event of a run was answered in the state that the run had reached before it. -/
theorem Runs.split {before after : List (ι × ω)} {event : ι × ω}
    (runs : Runs machine allowed initial (before ++ event :: after) state) :
    ∃ middle, Runs machine allowed initial before middle ∧ allowed before event.1 ∧
      event.2 = (machine.step middle event.1).1 ∧
      Runs machine allowed initial (before ++ [event]) (machine.step middle event.1).2 := by
  generalize whole : before ++ event :: after = history at runs
  induction runs generalizing after with
  | start => simp at whole
  | @step history state input earlier legal ih =>
      rcases List.eq_nil_or_concat after with rfl | ⟨front, last, rfl⟩
      · obtain ⟨rfl, equal⟩ := List.append_inj' whole rfl
        cases equal
        exact ⟨state, earlier, legal, rfl, .step input earlier legal⟩
      · rw [List.concat_eq_append, ← List.cons_append, ← List.append_assoc] at whole
        exact ih (List.append_inj' whole rfl).1

/-- A machine that answers as another one and keeps its states related to the other's states runs
through the histories of the other. -/
theorem Runs.simulate {τ : Type} {other : Machine τ ι ω} {shadow : τ}
    {related : List (ι × ω) → σ → τ → Prop} (start : related [] initial shadow)
    (preserved : ∀ history state image input, related history state image →
      allowed history input → (machine.step state input).1 = (other.step image input).1 ∧
        related (history ++ [(input, (machine.step state input).1)]) (machine.step state input).2
          (other.step image input).2)
    (runs : Runs machine allowed initial history state) :
    ∃ image, Runs other allowed shadow history image ∧ related history state image := by
  induction runs with
  | start => exact ⟨shadow, .start, start⟩
  | step input before legal ih =>
      obtain ⟨image, followed, close⟩ := ih
      obtain ⟨equal, next⟩ := preserved _ _ image input close legal
      refine ⟨_, ?_, next⟩
      rw [equal]
      exact .step input followed legal

/-- The answers of a machine decide its state. -/
theorem Runs.unique {other : σ} (left : Runs machine allowed initial history state)
    (right : Runs machine allowed initial history other) : state = other := by
  induction left generalizing other with
  | start =>
      generalize empty : ([] : List (ι × ω)) = list at right
      cases right with
      | start => rfl
      | step input before legal => simp at empty
  | @step history state input before legal ih =>
      generalize whole : history ++ [(input, (machine.step state input).1)] = list at right
      cases right with
      | start => simp at whole
      | @step front middle last earlier allowed =>
          obtain ⟨rfl, equal⟩ := List.append_inj' whole rfl
          obtain ⟨rfl, -⟩ := Prod.mk.inj (List.singleton_inj.mp equal)
          rw [ih earlier]

/-- Every state that the history has passed through is good. -/
def Always (machine : Machine σ ι ω) (allowed : List (ι × ω) → ι → Prop) (initial : σ)
    (good : σ → Prop) (history : List (ι × ω)) : Prop :=
  ∀ before after state, history = before ++ after → Runs machine allowed initial before state →
    good state

/-- Every input of the history meets a condition on the events before it. -/
def Each (meets : List (ι × ω) → ι → Prop) (history : List (ι × ω)) : Prop :=
  ∀ before event after, history = before ++ event :: after → meets before event.1

/-- A prefix of a longer history is a prefix of the shorter one or the whole. -/
theorem append_eq_concat {α : Type} {list before after : List α} {last : α}
    (whole : list ++ [last] = before ++ after) :
    before = list ++ [last] ∨ ∃ front, after = front ++ [last] ∧ list = before ++ front := by
  rcases List.eq_nil_or_concat after with rfl | ⟨front, other, rfl⟩
  · rw [List.append_nil] at whole
    exact .inl whole.symm
  · rw [List.concat_eq_append, ← List.append_assoc] at whole
    obtain ⟨equal, tail⟩ := List.append_inj' whole rfl
    obtain rfl := List.singleton_inj.mp tail
    exact .inr ⟨front, List.concat_eq_append, equal⟩

variable {good : σ → Prop} {meets : List (ι × ω) → ι → Prop}

/-- The history without events has passed through the initial state. -/
theorem always_nil : Always machine allowed initial good [] ↔ good initial := by
  constructor
  · intro always
    exact always [] [] initial rfl .start
  · intro holds before after state empty runs
    obtain ⟨rfl, -⟩ := List.append_eq_nil_iff.mp empty.symm
    rwa [runs.unique .start]

theorem always_step {input : ι} (before : Runs machine allowed initial history state)
    (legal : allowed history input) :
    Always machine allowed initial good (history ++ [(input, (machine.step state input).1)]) ↔
      Always machine allowed initial good history ∧ good (machine.step state input).2 := by
  have after := before.step input legal
  constructor
  · intro always
    refine ⟨?_, always _ [] _ (List.append_nil _).symm after⟩
    intro front back middle whole runs
    exact always front (back ++ [(input, (machine.step state input).1)]) middle
      (by rw [whole, List.append_assoc]) runs
  · intro ⟨always, last⟩ front back middle whole runs
    rcases append_eq_concat whole with rfl | ⟨rest, -, shorter⟩
    · rwa [runs.unique after]
    · exact always front rest middle shorter runs

theorem each_nil : Each meets ([] : List (ι × ω)) := by
  intro before event after empty
  simp at empty

theorem each_step {input : ι} {answer : ω} :
    Each meets (history ++ [(input, answer)]) ↔ Each meets history ∧ meets history input := by
  constructor
  · intro each
    refine ⟨?_, each history (input, answer) [] rfl⟩
    intro before event after whole
    exact each before event (after ++ [(input, answer)]) (by rw [whole]; simp)
  · intro ⟨each, last⟩ before event after whole
    rcases append_eq_concat whole with rfl | ⟨front, tail, rfl⟩
    · simp at whole
    · cases front with
      | nil =>
          obtain ⟨rfl, -⟩ := List.cons.inj tail
          rwa [List.append_nil] at last
      | cons first rest =>
          obtain ⟨rfl, -⟩ := List.cons.inj tail
          exact each before event rest rfl

/-- Where a step from a good state leads to a good one exactly when its input meets the condition,
all states of a run are good exactly when all its inputs meet the condition. -/
theorem Runs.always_iff {holds : List (ι × ω) → σ → Prop} (fine : good initial)
    (start : holds [] initial)
    (preserved : ∀ history state input, holds history state → good state → allowed history input →
      holds (history ++ [(input, (machine.step state input).1)]) (machine.step state input).2 ∧
        (good (machine.step state input).2 ↔ meets history input))
    (runs : Runs machine allowed initial history state) :
    Always machine allowed initial good history ↔ Each meets history := by
  suffices both : (Always machine allowed initial good history ↔ Each meets history) ∧
      (Always machine allowed initial good history → holds history state) from both.1
  induction runs with
  | start => exact ⟨iff_of_true (always_nil.mpr fine) each_nil, fun _ => start⟩
  | @step history state input before legal ih =>
      obtain ⟨same, kept⟩ := ih
      rw [always_step before legal, each_step, same]
      have step (each : Each meets history) := by
        have always := same.mpr each
        exact preserved history state input (kept always) (always history [] state
          (List.append_nil _).symm before) legal
      exact ⟨and_congr_right fun each => (step each).2, fun both => (step both.1).1⟩

/-- Every input of the history is good for the state in which it arrives. -/
def Throughout (machine : Machine σ ι ω) (allowed : List (ι × ω) → ι → Prop) (initial : σ)
    (good : σ → ι → Prop) (history : List (ι × ω)) : Prop :=
  ∀ before event after state, history = before ++ event :: after →
    Runs machine allowed initial before state → good state event.1

section Throughout

variable {good : σ → ι → Prop}

theorem throughout_nil : Throughout machine allowed initial good [] := by
  intro before event after state empty
  simp at empty

theorem Throughout.front {front back : List (ι × ω)}
    (throughout : Throughout machine allowed initial good (front ++ back)) :
    Throughout machine allowed initial good front := by
  intro before event after state whole runs
  exact throughout before event (after ++ back) state (by rw [whole]; simp) runs

theorem throughout_step {input : ι} {answer : ω} (before : Runs machine allowed initial history state) :
    Throughout machine allowed initial good (history ++ [(input, answer)]) ↔
      Throughout machine allowed initial good history ∧ good state input := by
  constructor
  · intro throughout
    exact ⟨throughout.front, throughout history (input, answer) [] state rfl before⟩
  · intro ⟨throughout, last⟩ front event back middle whole runs
    rcases append_eq_concat whole with rfl | ⟨rest, tail, rfl⟩
    · simp at whole
    · cases rest with
      | nil =>
          obtain ⟨rfl, -⟩ := List.cons.inj tail
          rw [List.append_nil] at before
          rwa [runs.unique before]
      | cons first rest =>
          obtain ⟨rfl, -⟩ := List.cons.inj tail
          exact throughout front event rest middle rfl runs

/-- A property that survives each good step holds after a run of good steps. -/
theorem Runs.invariant_throughout {holds : List (ι × ω) → σ → Prop} (start : holds [] initial)
    (preserved : ∀ history state input, holds history state → allowed history input →
      good state input →
        holds (history ++ [(input, (machine.step state input).1)]) (machine.step state input).2)
    (runs : Runs machine allowed initial history state)
    (throughout : Throughout machine allowed initial good history) : holds history state := by
  induction runs with
  | start => exact start
  | step input before legal ih =>
      obtain ⟨earlier, last⟩ := (throughout_step before).mp throughout
      exact preserved _ _ input (ih earlier) legal last

end Throughout

/-- A machine whose visible steps are those of another one drives the other one through the history
of these steps. -/
theorem Runs.project {τ ι' ω' : Type} {other : Machine τ ι' ω'}
    {legal : List (ι' × ω') → ι' → Prop} (view : σ → τ) (event : ι × ω → Option (ι' × ω'))
    (visible : ∀ history state input, allowed history input →
      ∀ seen, event (input, (machine.step state input).1) = some seen →
        legal (history.filterMap event) seen.1 ∧
          other.step (view state) seen.1 = (seen.2, view (machine.step state input).2))
    (hidden : ∀ history state input, allowed history input →
      event (input, (machine.step state input).1) = none →
        view (machine.step state input).2 = view state)
    (runs : Runs machine allowed initial history state) :
    Runs other legal (view initial) (history.filterMap event) (view state) := by
  induction runs with
  | start => exact .start
  | @step history state input before allows ih =>
      rw [List.filterMap_append, List.filterMap_cons]
      cases found : event (input, (machine.step state input).1) with
      | none =>
          rw [hidden history state input allows found]
          simpa using ih
      | some seen =>
          obtain ⟨admitted, stepped⟩ := visible history state input allows seen found
          exact ih.next admitted stepped

/-- A machine that makes at most one call to another one in each step drives it through a run whose
history stands in the relation that each step keeps. -/
theorem Runs.drive {τ ι' ω' : Type} {other : Machine τ ι' ω'}
    {legal : List (ι' × ω') → ι' → Prop} {relates : List (ι × ω) → List (ι' × ω') → Prop} (view : σ → τ)
    (start : relates [] [])
    (kept : ∀ history inner state input, Runs machine allowed initial history state →
      allowed history input → relates history inner →
      (view (machine.step state input).2 = view state ∧
        relates (history ++ [(input, (machine.step state input).1)]) inner) ∨
      ∃ call, legal inner call ∧ view (machine.step state input).2 = (other.step (view state) call).2 ∧
        relates (history ++ [(input, (machine.step state input).1)])
          (inner ++ [(call, (other.step (view state) call).1)]))
    (runs : Runs machine allowed initial history state) :
    ∃ inner, relates history inner ∧ Runs other legal (view initial) inner (view state) := by
  induction runs with
  | start => exact ⟨[], start, .start⟩
  | @step history state input before allows ih =>
      obtain ⟨inner, related, driven⟩ := ih
      rcases kept history inner state input before allows related with ⟨same, still⟩ | ⟨call, permitted, moved, still⟩
      · exact ⟨inner, still, by rw [same]; exact driven⟩
      · exact ⟨_, still, by rw [moved]; exact driven.step call permitted⟩

/-- The state in which a history ends when its inputs are given again. -/
def reached (machine : Machine σ ι ω) (initial : σ) (history : List (ι × ω)) : σ :=
  history.foldl (fun state event => (machine.step state event.1).2) initial

/-- Each event of the history with the state in which it arrives. -/
def visits (machine : Machine σ ι ω) (initial : σ) : List (ι × ω) → List (σ × ι × ω)
  | [] => []
  | event :: rest => (initial, event) :: visits machine (machine.step initial event.1).2 rest

theorem visits_append (front back : List (ι × ω)) :
    machine.visits initial (front ++ back) =
      machine.visits initial front ++ machine.visits (machine.reached initial front) back := by
  induction front generalizing initial with
  | nil => rfl
  | cons event front ih =>
      rw [List.cons_append, visits, visits, ih, List.cons_append]
      rfl

theorem Runs.reached (runs : Runs machine allowed initial history state) :
    machine.reached initial history = state := by
  induction runs with
  | start => rfl
  | step input before legal ih => rw [Machine.reached, List.foldl_concat, ← Machine.reached, ih]

/-- The last event of a run arrives in the state that the run has reached. -/
theorem Runs.visits_step (before : Runs machine allowed initial history state) (event : ι × ω) :
    machine.visits initial (history ++ [event]) =
      machine.visits initial history ++ [(state, event)] := by
  rw [visits_append, before.reached]
  rfl

section LastWrite

variable {α β : Type} {writes : ι × ω → Option α}

/-- The value of the last event that writes one. -/
def lastWrite (writes : ι × ω → Option α) (history : List (ι × ω)) : Option α :=
  (history.filterMap writes).getLast?

theorem lastWrite_concat (history : List (ι × ω)) (event : ι × ω) :
    lastWrite writes (history ++ [event]) = (writes event).or (lastWrite writes history) := by
  unfold lastWrite
  rw [List.filterMap_append]
  cases found : writes event with
  | none => simp [found]
  | some value => simp [found]

/-- A part of the state that only the writing events change shows the last write, if there is one. -/
theorem Runs.shows_lastWrite {shows : Option α → β → Prop} (view : σ → β)
    (start : shows none (view initial))
    (written : ∀ history state input, allowed history input →
      shows (lastWrite writes history) (view state) → ∀ value,
        writes (input, (machine.step state input).1) = some value →
          shows (some value) (view (machine.step state input).2))
    (kept : ∀ history state input, allowed history input →
      shows (lastWrite writes history) (view state) →
        writes (input, (machine.step state input).1) = none →
          view (machine.step state input).2 = view state)
    (runs : Runs machine allowed initial history state) :
    shows (lastWrite writes history) (view state) := by
  induction runs with
  | start => exact start
  | @step history state input before legal ih =>
      rw [lastWrite_concat]
      cases found : writes (input, (machine.step state input).1) with
      | none =>
          rw [Option.none_or, kept history state input legal ih found]
          exact ih
      | some value =>
          rw [Option.some_or]
          exact written history state input legal ih value found

end LastWrite

/-- A clock allows each input that is no earlier than the inputs before it. -/
def clocked (history : List ((Nat × ι) × ω)) (input : Nat × ι) : Prop :=
  ∀ past ∈ history, past.1.1 ≤ input.1

/-- Some clock reading is no earlier than any of a history. -/
theorem exists_latest (history : List ((Nat × ι) × ω)) : ∃ now, ∀ past ∈ history, past.1.1 ≤ now := by
  induction history with
  | nil => exact ⟨0, by simp⟩
  | cons event rest ih =>
      obtain ⟨now, bound⟩ := ih
      exact ⟨max event.1.1 now, List.forall_mem_cons.mpr
        ⟨Nat.le_max_left _ _, fun past member => Nat.le_trans (bound past member) (Nat.le_max_right _ _)⟩⟩

/-- The visible steps keep the clock. -/
theorem clocked_filterMap {ι' ω' : Type} {history : List ((Nat × ι) × ω)} {input : Nat × ι}
    {event : (Nat × ι) × ω → Option ((Nat × ι') × ω')} {call : ι'} (legal : clocked history input)
    (timed : ∀ past seen, event past = some seen → seen.1.1 = past.1.1) :
    clocked (history.filterMap event) (input.1, call) := by
  intro seen member
  obtain ⟨past, inside, found⟩ := List.mem_filterMap.mp member
  rw [timed past seen found]
  exact legal past inside

end Machine
end PrivacyPass.Library
