import Mathlib.Algebra.Order.BigOperators.Group.List
import Mathlib.Algebra.Order.Ring.Nat
import Mathlib.Data.List.Basic

/-
This file develops lists of nonempty pieces that a separator joins into one text.
-/

namespace PrivacyPass.Library.Pieces

variable {α : Type} {separator : α}

def join (separator : α) (parts : List (List α)) : List α := [separator].intercalate parts

theorem join_length (parts : List (List α)) :
    (join separator parts).length = (parts.map List.length).sum + (parts.length - 1) := by
  induction parts with
  | nil => rfl
  | cons head tail ih =>
      cases tail with
      | nil => simp [join]
      | cons second tail =>
          rw [join, List.intercalate_cons_cons, ← join]
          simp only [List.length_append, ih, List.map_cons, List.sum_cons, List.length_cons,
            List.length_nil]
          omega

/-- A sublist of parts joins to a text that is no longer. -/
theorem join_length_le {few many : List (List α)} (sublist : few.Sublist many) :
    (join separator few).length ≤ (join separator many).length := by
  have sums : (few.map List.length).sum ≤ (many.map List.length).sum :=
    (sublist.map _).sum_le_sum fun _ _ => Nat.zero_le _
  have lengths := sublist.length_le
  rw [join_length, join_length]
  omega

variable [DecidableEq α]

/-- The pieces of a text are the nonempty parts between its separators. -/
def pieces (separator : α) (text : List α) : List (List α) :=
  (text.splitOn separator).filter fun piece => !piece.isEmpty

/-- The canonical text joins the pieces with single separators. -/
def canonical (separator : α) (text : List α) : List α := join separator (pieces separator text)

theorem not_mem_of_mem_splitOn {text piece : List α} (member : piece ∈ text.splitOn separator) :
    separator ∉ piece := by
  induction text generalizing piece with
  | nil =>
      rw [List.splitOn_nil, List.mem_singleton] at member
      simp [member]
  | cons head tail ih =>
      rw [List.splitOn_cons_eq_if_modifyHead] at member
      split at member
      · rcases List.mem_cons.mp member with rfl | member
        · simp
        · exact ih member
      · next different =>
          cases shape : tail.splitOn separator with
          | nil => exact absurd shape (List.splitOn_ne_nil separator tail)
          | cons first others =>
              rw [shape] at member ih
              rcases List.mem_cons.mp member with rfl | member
              · have inner := ih List.mem_cons_self
                simp only [beq_iff_eq] at different
                simp [inner, Ne.symm different]
              · exact ih (List.mem_cons_of_mem _ member)

theorem mem_pieces {text piece : List α} :
    piece ∈ pieces separator text ↔ piece ∈ text.splitOn separator ∧ piece ≠ [] := by
  simp [pieces]

theorem pieces_ne_nil {text piece : List α} (member : piece ∈ pieces separator text) :
    piece ≠ [] := (mem_pieces.mp member).2

theorem pieces_not_mem {text piece : List α} (member : piece ∈ pieces separator text) :
    separator ∉ piece := not_mem_of_mem_splitOn (mem_pieces.mp member).1

@[simp] theorem pieces_nil : pieces separator [] = [] := by
  simp [pieces]

/-- A text without a separator is its own piece unless it is empty. -/
theorem pieces_of_not_mem {text : List α} (absent : separator ∉ text) :
    pieces separator text = if text.isEmpty then [] else [text] := by
  rw [pieces, List.splitOn_eq_singleton absent]
  cases text <;> rfl

/-- The first separator ends the first part. -/
theorem pieces_append_cons {part rest : List α} (absent : separator ∉ part) :
    pieces separator (part ++ separator :: rest) =
      (if part.isEmpty then [] else [part]) ++ pieces separator rest := by
  rw [pieces, List.splitOn_append_cons_self_of_not_mem absent, List.filter_cons]
  cases part <;> rfl

/-- A text without a piece holds nothing but separators. -/
theorem pieces_eq_nil_iff {text : List α} :
    pieces separator text = [] ↔ text = List.replicate text.length separator := by
  induction text with
  | nil => simp
  | cons head tail ih =>
      by_cases same : head = separator
      · subst same
        have first := @pieces_append_cons α head _ [] tail (by simp)
        rw [List.nil_append] at first
        rw [first, List.isEmpty_nil, if_pos rfl, List.nil_append, ih, List.length_cons, List.replicate_succ,
          List.cons_inj_right]
      · constructor
        · intro none
          have inside : ∃ piece ∈ (head :: tail).splitOn separator, piece ≠ [] := by
            rw [List.splitOn_cons_eq_if_modifyHead, if_neg (by simpa using same)]
            cases shape : tail.splitOn separator with
            | nil => exact absurd shape (List.splitOn_ne_nil separator tail)
            | cons first others => exact ⟨head :: first, by simp, List.cons_ne_nil _ _⟩
          obtain ⟨piece, member, some⟩ := inside
          have kept := mem_pieces.mpr ⟨member, some⟩
          rw [none] at kept
          cases kept
        · intro all
          rw [List.length_cons, List.replicate_succ] at all
          exact absurd (List.cons.inj all).1 same

section Doubled

variable {part rest : List α}

/-- A part counts for one piece unless it is empty. -/
theorem pieces_append_length (absent : separator ∉ part) :
    (pieces separator (part ++ separator :: rest)).length =
      (if part.isEmpty then 0 else 1) + (pieces separator rest).length := by
  rw [pieces_append_cons absent, List.length_append]
  cases part <;> rfl

omit [DecidableEq α] in
/-- A text ends with one separator behind a part that has none. -/
theorem single_suffix (absent : separator ∉ part) :
    ¬ [separator, separator] <:+ part ++ [separator] := by
  intro ⟨front, equal⟩
  have whole : front ++ [separator] ++ [separator] = part ++ [separator] := by
    rw [← equal, List.append_assoc]
    rfl
  apply absent
  rw [← List.append_cancel_right whole]
  exact List.mem_append_right front (List.mem_singleton_self separator)

/-- A rest without a piece makes the text end with two separators. -/
theorem doubled_suffix (none : pieces separator rest = []) (some : rest ≠ []) :
    [separator, separator] <:+ part ++ separator :: rest := by
  obtain ⟨count, length⟩ := Nat.exists_eq_succ_of_ne_zero (mt List.length_eq_zero_iff.mp some)
  rw [pieces_eq_nil_iff.mp none, length]
  refine ⟨part ++ List.replicate count separator, ?_⟩
  have swap : List.replicate count separator ++ [separator, separator] =
      separator :: List.replicate (count + 1) separator := by
    rw [← List.replicate_succ, List.replicate_succ', List.replicate_succ', List.append_assoc]
    rfl
  rw [List.append_assoc, swap]

/-- A rest with a piece decides whether the text ends with two separators. -/
theorem doubled_suffix_iff (some : pieces separator rest ≠ []) :
    [separator, separator] <:+ part ++ separator :: rest ↔ [separator, separator] <:+ rest := by
  have tail : rest <:+ part ++ separator :: rest :=
    ⟨part ++ [separator], by rw [List.append_assoc, List.singleton_append]⟩
  constructor
  · intro doubled
    rcases rest with _ | ⟨first, _ | ⟨second, others⟩⟩
    · simp at some
    · have last : [first] <:+ [separator, separator] :=
        List.suffix_of_suffix_length_le tail doubled (by simp)
      have same : first = separator := by simpa using last.mem (List.mem_singleton_self first)
      exact absurd (pieces_eq_nil_iff.mpr (by rw [same]; rfl)) some
    · exact List.suffix_of_suffix_length_le doubled tail (by simp)
  · exact fun doubled => doubled.trans tail

end Doubled

/-- Joined parts split into the same parts when each is nonempty and free of separators. -/
theorem splitOn_join {parts : List (List α)} (free : ∀ part ∈ parts, separator ∉ part)
    (some : parts ≠ []) : (join separator parts).splitOn separator = parts :=
  List.splitOn_intercalate separator free some

/-- Joined parts have the same parts as their pieces when each is nonempty and free of separators. -/
theorem pieces_join {parts : List (List α)} (free : ∀ part ∈ parts, separator ∉ part)
    (nonempty : ∀ part ∈ parts, part ≠ []) : pieces separator (join separator parts) = parts := by
  cases parts with
  | nil => simp [join]
  | cons head tail =>
      rw [pieces, splitOn_join free (List.cons_ne_nil head tail), List.filter_eq_self]
      intro part member
      simpa using nonempty part member

/-- A text is canonical exactly when it is empty or has no empty part. -/
theorem canonical_eq_iff (text : List α) :
    canonical separator text = text ↔ text = [] ∨ [] ∉ text.splitOn separator := by
  constructor
  · intro equal
    by_cases none : pieces separator text = []
    · left
      rw [← equal, canonical, none]
      rfl
    · right
      have parts : text.splitOn separator = pieces separator text := by
        conv_lhs => rw [← equal]
        exact splitOn_join (fun _ member => pieces_not_mem member) none
      rw [parts]
      intro member
      exact pieces_ne_nil member rfl
  · rintro (rfl | nonempty)
    · simp [canonical, join]
    · have all : pieces separator text = text.splitOn separator := by
        rw [pieces, List.filter_eq_self]
        intro piece member
        cases piece with
        | nil => exact absurd member nonempty
        | cons head tail => rfl
      rw [canonical, all, join, List.intercalate_splitOn]

theorem canonical_length_le (text : List α) :
    (canonical separator text).length ≤ text.length := by
  have shorter : (canonical separator text).length ≤ (join separator (text.splitOn separator)).length :=
    join_length_le List.filter_sublist
  rwa [join, List.intercalate_splitOn] at shorter

end PrivacyPass.Library.Pieces
