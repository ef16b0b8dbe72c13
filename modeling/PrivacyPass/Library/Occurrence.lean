import Mathlib.Data.List.Infix

/-
This file finds a list inside another one by the place of its first element.
The elements are arbitrary.
-/

namespace PrivacyPass.Library

variable {α β : Type} {list pattern : List α}

/-- Two lists go on alike from two places when they agree there and go on alike behind them. -/
theorem drop_prefix_drop_iff {place start : Nat} (inside : place < pattern.length)
    (reached : start < list.length) :
    pattern.drop place <+: list.drop start ↔
      list[start] = pattern[place] ∧ pattern.drop (place + 1) <+: list.drop (start + 1) := by
  rw [List.drop_eq_getElem_cons inside, List.drop_eq_getElem_cons reached, List.cons_prefix_cons,
    eq_comm]

/-- A pattern stands inside a list when it stands at a start that leaves it enough room. -/
theorem infix_iff_exists_drop :
    pattern <:+: list ↔
      ∃ start, start + pattern.length ≤ list.length ∧ pattern <+: list.drop start := by
  constructor
  · rintro ⟨before, after, rfl⟩
    refine ⟨before.length, ?_, after, ?_⟩
    · simp only [List.length_append]
      omega
    · rw [List.append_assoc, List.drop_left]
  · intro ⟨start, _, standing⟩
    exact standing.isInfix.trans (List.drop_suffix start list).isInfix

/-- A pattern stands at the end of a list when it stands at the only start that leaves nothing. -/
theorem suffix_iff_prefix_drop (shorter : pattern.length ≤ list.length) :
    pattern <:+ list ↔ pattern <+: list.drop (list.length - pattern.length) := by
  have rest : (list.drop (list.length - pattern.length)).length = pattern.length := by
    rw [List.length_drop]
    omega
  rw [List.suffix_iff_eq_drop, List.prefix_iff_eq_take, List.take_of_length_le (Nat.le_of_eq rest)]

/-- A pattern that is as long as its list is the whole list. -/
theorem prefix_iff_eq (long : list.length = pattern.length) : pattern <+: list ↔ list = pattern := by
  rw [List.prefix_iff_eq_take, List.take_of_length_le (Nat.le_of_eq long), eq_comm]

theorem infix_map_iff_of_injective {f : α → β} (injective : Function.Injective f) :
    pattern.map f <:+: list.map f ↔ pattern <:+: list := by
  simp only [infix_iff_exists_drop, List.length_map, ← List.map_drop,
    List.prefix_map_iff_of_injective injective]

end PrivacyPass.Library
