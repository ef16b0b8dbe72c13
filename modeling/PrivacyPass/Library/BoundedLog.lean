import Mathlib.Data.List.Basic

/-
This file develops a log that refuses what exceeds its capacity, and compares it with a log without
one. The symbols are arbitrary. A request for the log is a list of pieces, and each piece goes into
the log as a whole or not at all.
-/

namespace PrivacyPass.Library

variable {α : Type} {capacity : Nat}

/-- A request may be refused without a look at the log. -/
abbrev Request (α : Type) := Option (List (List α))

/-- A bounded log never holds more than its capacity, and it remembers that a piece did not fit. -/
structure BoundedLog (α : Type) (capacity : Nat) where
  content : List α
  small : content.length ≤ capacity
  overflow : Bool

namespace BoundedLog

def empty : BoundedLog α capacity := ⟨[], Nat.zero_le capacity, false⟩

def room (log : BoundedLog α capacity) : Nat := capacity - log.content.length

/-- This is the log with a piece that fits. -/
def push (log : BoundedLog α capacity) (piece : List α)
    (fits : log.content.length + piece.length ≤ capacity) : BoundedLog α capacity :=
  ⟨log.content ++ piece, by rwa [List.length_append], log.overflow⟩

/-- This is the log that remembers a piece that does not fit. -/
def refuse (log : BoundedLog α capacity) : BoundedLog α capacity := ⟨log.content, log.small, true⟩

def put (piece : List α) (log : BoundedLog α capacity) : Bool × BoundedLog α capacity :=
  if fits : log.content.length + piece.length ≤ capacity then (true, log.push piece fits)
  else (false, log.refuse)

/-- The pieces go into the log one after another until one does not fit. -/
def putAll : List (List α) → BoundedLog α capacity → Bool × BoundedLog α capacity
  | [], log => (true, log)
  | piece :: pieces, log =>
      match log.put piece with
      | (true, moved) => putAll pieces moved
      | (false, moved) => (false, moved)

def answer (request : Request α) (log : BoundedLog α capacity) : Bool × BoundedLog α capacity :=
  match request with
  | none => (false, log)
  | some pieces => putAll pieces log

def answerAll : List (Request α) → BoundedLog α capacity → List Bool × BoundedLog α capacity
  | [], log => ([], log)
  | request :: requests, log =>
      let called := log.answer request
      let others := answerAll requests called.2
      (called.1 :: others.1, others.2)

end BoundedLog

namespace Request

/-- A log without a capacity takes every piece. -/
def append (request : Request α) (log : List α) : Bool × List α :=
  match request with
  | none => (false, log)
  | some pieces => (true, log ++ pieces.flatten)

def appendAll : List (Request α) → List α → List Bool × List α
  | [], log => ([], log)
  | request :: requests, log =>
      let called := request.append log
      let others := appendAll requests called.2
      (called.1 :: others.1, others.2)

theorem append_length_le (request : Request α) (log : List α) :
    log.length ≤ (request.append log).2.length := by
  cases request with
  | none => exact Nat.le_refl _
  | some pieces =>
      change log.length ≤ (log ++ pieces.flatten).length
      rw [List.length_append]
      exact Nat.le_add_right _ _

/-- A log without a capacity never shrinks. -/
theorem appendAll_length_le (requests : List (Request α)) (log : List α) :
    log.length ≤ (appendAll requests log).2.length := by
  induction requests generalizing log with
  | nil => exact Nat.le_refl _
  | cons request requests ih => exact Nat.le_trans (append_length_le request log) (ih _)

/-- A request is torn when its first piece fits the room and its pieces together do not. -/
def Torn (request : Request α) (room : Nat) : Prop :=
  match request with
  | some (first :: rest) => first.length ≤ room ∧ room < first.length + rest.flatten.length
  | _ => False

/-- An empty first piece stands alone. -/
def Proper (request : Request α) : Prop :=
  ∀ first rest, request = some (first :: rest) → first = [] → rest = []

section Shapes

/-- A piece that is put as a whole is never torn. -/
theorem torn_single (piece : List α) (room : Nat) : ¬ Torn (some [piece]) room := by
  intro ⟨fits, exceeds⟩
  rw [List.flatten_nil, List.length_nil] at exceeds
  omega

/-- A word that is put symbol by symbol is torn when some but not all of its symbols fit. -/
theorem torn_word (word : List α) (room : Nat) :
    Torn (some (word.map fun symbol => [symbol])) room ↔ 1 ≤ room ∧ room < word.length := by
  cases word with
  | nil => exact iff_of_false id (by simp)
  | cons symbol rest =>
      change (1 ≤ room ∧ room < 1 + (rest.map fun symbol => [symbol]).flatten.length) ↔ _
      rw [← List.flatMap_def, List.flatMap_singleton', List.length_cons, Nat.add_comm]

/-- A pair is refused as a whole above the limit and torn only below it. -/
theorem torn_limited (limit : Nat) (first second : List α) (room : Nat) :
    Torn (if second.length > limit then none else some [first, second]) room ↔
      second.length ≤ limit ∧ first.length ≤ room ∧ room < first.length + second.length := by
  split
  · next long => exact iff_of_false id (fun torn => Nat.not_le_of_lt long torn.1)
  · next short =>
      change first.length ≤ room ∧ room < first.length + [second].flatten.length ↔ _
      rw [List.flatten_singleton, and_iff_right (Nat.le_of_not_lt short)]

theorem proper_single (piece : List α) : Proper (some [piece]) := by
  intro first rest shape _
  cases shape
  rfl

theorem proper_cons {piece : List α} (nonempty : piece ≠ []) (pieces : List (List α)) :
    Proper (some (piece :: pieces)) := by
  intro first rest shape nothing
  cases shape
  exact absurd nothing nonempty

theorem proper_word (word : List α) : Proper (some (word.map fun symbol => [symbol])) := by
  cases word with
  | nil =>
      intro first rest shape
      cases shape
  | cons symbol rest => exact proper_cons (List.cons_ne_nil _ _) _

theorem proper_limited {limit : Nat} {first second : List α} (nonempty : first ≠ []) :
    Proper (if second.length > limit then none else some [first, second]) := by
  split
  · intro first rest shape
    cases shape
  · exact proper_cons nonempty _

end Shapes

end Request

namespace BoundedLog

open Request

section Pieces

variable {log : BoundedLog α capacity}

theorem put_of_fits {piece : List α} (fits : log.content.length + piece.length ≤ capacity) :
    log.put piece = (true, log.push piece fits) := dif_pos fits

theorem put_of_exceeds {piece : List α} (exceeds : ¬ log.content.length + piece.length ≤ capacity) :
    log.put piece = (false, log.refuse) := dif_neg exceeds

/-- A first piece that fits is followed by the others. -/
theorem putAll_cons_of_fits {piece : List α} (pieces : List (List α))
    (fits : log.content.length + piece.length ≤ capacity) :
    log.putAll (piece :: pieces) = (log.push piece fits).putAll pieces := by
  rw [putAll, put_of_fits fits]

theorem putAll_cons_of_exceeds {piece : List α} (pieces : List (List α))
    (exceeds : ¬ log.content.length + piece.length ≤ capacity) :
    log.putAll (piece :: pieces) = (false, log.refuse) := by
  rw [putAll, put_of_exceeds exceeds]

theorem putAll_singleton (piece : List α) (log : BoundedLog α capacity) :
    log.putAll [piece] = log.put piece := by
  by_cases fits : log.content.length + piece.length ≤ capacity
  · rw [putAll_cons_of_fits [] fits, put_of_fits fits]
    rfl
  · rw [putAll_cons_of_exceeds [] fits, put_of_exceeds fits]

/-- Pieces that fit together go into the log. -/
theorem putAll_of_fits {pieces : List (List α)}
    (fits : log.content.length + pieces.flatten.length ≤ capacity) :
    (log.putAll pieces).1 = true ∧ (log.putAll pieces).2.content = log.content ++ pieces.flatten ∧
      (log.putAll pieces).2.overflow = log.overflow := by
  induction pieces generalizing log with
  | nil => exact ⟨rfl, (List.append_nil _).symm, rfl⟩
  | cons piece pieces ih =>
      rw [List.flatten_cons, List.length_append] at fits
      rw [putAll_cons_of_fits pieces (by omega)]
      have moved : (log.push piece (by omega)).content = log.content ++ piece := rfl
      obtain ⟨success, content, overflow⟩ := @ih (log.push piece (by omega))
        (by rw [moved, List.length_append]; omega)
      refine ⟨success, ?_, overflow⟩
      rw [content, moved, List.flatten_cons, List.append_assoc]

/-- Pieces that do not fit together are refused, and the log remembers it. -/
theorem putAll_of_exceeds {pieces : List (List α)}
    (exceeds : capacity < log.content.length + pieces.flatten.length) :
    (log.putAll pieces).1 = false ∧ (log.putAll pieces).2.overflow = true := by
  induction pieces generalizing log with
  | nil =>
      have small := log.small
      rw [List.flatten_nil, List.length_nil] at exceeds
      omega
  | cons piece pieces ih =>
      rw [List.flatten_cons, List.length_append] at exceeds
      by_cases fits : log.content.length + piece.length ≤ capacity
      · rw [putAll_cons_of_fits pieces fits]
        exact ih (by rw [push, List.length_append]; omega)
      · rw [putAll_cons_of_exceeds pieces fits]
        exact ⟨rfl, rfl⟩

/-- The log never loses a symbol. -/
theorem content_prefix_putAll (pieces : List (List α)) (log : BoundedLog α capacity) :
    log.content <+: (log.putAll pieces).2.content := by
  induction pieces generalizing log with
  | nil => exact List.prefix_rfl
  | cons piece pieces ih =>
      by_cases fits : log.content.length + piece.length ≤ capacity
      · rw [putAll_cons_of_fits pieces fits]
        exact (List.prefix_append log.content piece).trans (ih (log.push piece fits))
      · rw [putAll_cons_of_exceeds pieces fits]
        exact List.prefix_rfl

/-- A remembered refusal is never forgotten. -/
theorem putAll_overflow (pieces : List (List α)) (overflow : log.overflow = true) :
    (log.putAll pieces).2.overflow = true := by
  induction pieces generalizing log with
  | nil => exact overflow
  | cons piece pieces ih =>
      by_cases fits : log.content.length + piece.length ≤ capacity
      · rw [putAll_cons_of_fits pieces fits]
        exact ih overflow
      · rw [putAll_cons_of_exceeds pieces fits]
        rfl

end Pieces

section Runs

variable {log : BoundedLog α capacity}

theorem answerAll_overflow (requests : List (Request α)) (overflow : log.overflow = true) :
    (log.answerAll requests).2.overflow = true := by
  induction requests generalizing log with
  | nil => exact overflow
  | cons request requests ih =>
      apply ih
      cases request with
      | none => exact overflow
      | some pieces => exact putAll_overflow pieces overflow

/-- One request that fits is answered by both logs alike. -/
theorem answer_of_fits {request : Request α}
    (fits : (request.append log.content).2.length ≤ capacity) :
    (log.answer request).1 = (request.append log.content).1 ∧
      (log.answer request).2.content = (request.append log.content).2 ∧
      (log.answer request).2.overflow = log.overflow := by
  cases request with
  | none => exact ⟨rfl, rfl, rfl⟩
  | some pieces =>
      apply putAll_of_fits
      rw [← List.length_append]
      exact fits

theorem answer_of_exceeds {request : Request α}
    (exceeds : capacity < (request.append log.content).2.length) :
    (log.answer request).2.overflow = true := by
  cases request with
  | none => exact absurd log.small (Nat.not_le_of_lt exceeds)
  | some pieces =>
      apply (putAll_of_exceeds _).2
      rw [← List.length_append]
      exact exceeds

/-- A refused request leaves the content as it was exactly when it is not torn. -/
theorem answer_keeps_iff {request : Request α} (proper : request.Proper) :
    ((log.answer request).1 = false → (log.answer request).2.content = log.content) ↔
      ¬ request.Torn log.room := by
  have small := log.small
  rcases request with _ | _ | ⟨first, rest⟩
  · exact iff_of_true (fun _ => rfl) id
  · exact iff_of_true (fun _ => rfl) id
  · change ((log.putAll (first :: rest)).1 = false → (log.putAll (first :: rest)).2.content = _) ↔
      ¬ (first.length ≤ log.room ∧ log.room < first.length + rest.flatten.length)
    unfold room
    by_cases fits : log.content.length + (first ++ rest.flatten).length ≤ capacity
    · have success := (@putAll_of_fits _ _ log (first :: rest) fits).1
      rw [List.length_append] at fits
      refine iff_of_true (fun failed => ?_) (by omega)
      rw [success] at failed
      cases failed
    · have failed := (@putAll_of_exceeds _ _ log (first :: rest) (Nat.lt_of_not_le fits)).1
      rw [List.length_append] at fits
      by_cases start : log.content.length + first.length ≤ capacity
      · -- the first piece has entered the log
        have nonempty : first ≠ [] := by
          intro nothing
          rw [proper first rest rfl nothing, List.flatten_nil, List.length_nil] at fits
          omega
        have longer := List.length_pos_iff.mpr nonempty
        have grown := (content_prefix_putAll rest (log.push first start)).length_le
        change (log.content ++ first).length ≤ _ at grown
        rw [List.length_append] at grown
        refine iff_of_false (fun keeps => ?_) (by omega)
        have same := congrArg List.length (keeps failed)
        rw [putAll_cons_of_fits rest start] at same
        omega
      · refine iff_of_true (fun _ => ?_) (by omega)
        rw [putAll_cons_of_exceeds rest start]
        rfl

/-- Both logs agree on requests that fit together. -/
theorem answerAll_of_fits {requests : List (Request α)}
    (fits : (appendAll requests log.content).2.length ≤ capacity) :
    (log.answerAll requests).1 = (appendAll requests log.content).1 ∧
      (log.answerAll requests).2.content = (appendAll requests log.content).2 ∧
      (log.answerAll requests).2.overflow = log.overflow := by
  induction requests generalizing log with
  | nil => exact ⟨rfl, rfl, rfl⟩
  | cons request requests ih =>
      have first : (request.append log.content).2.length ≤ capacity :=
        Nat.le_trans (appendAll_length_le requests _) fits
      obtain ⟨answer, content, overflow⟩ := answer_of_fits first
      rw [appendAll, ← content] at fits
      obtain ⟨answers, contents, overflows⟩ := ih fits
      rw [answerAll, appendAll, ← answer, ← content]
      exact ⟨congrArg _ answers, contents, overflows.trans overflow⟩

/-- The bounded log overflows on requests that do not fit together. -/
theorem answerAll_of_exceeds {requests : List (Request α)}
    (exceeds : capacity < (appendAll requests log.content).2.length) :
    (log.answerAll requests).2.overflow = true := by
  induction requests generalizing log with
  | nil => exact absurd log.small (Nat.not_le_of_lt exceeds)
  | cons request requests ih =>
      by_cases first : (request.append log.content).2.length ≤ capacity
      · apply ih
        rw [(answer_of_fits first).2.1]
        exact exceeds
      · exact answerAll_overflow requests (answer_of_exceeds (Nat.lt_of_not_le first))

end Runs

end BoundedLog
end PrivacyPass.Library
