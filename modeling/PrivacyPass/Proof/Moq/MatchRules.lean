import PrivacyPass.Construction.Moq.AuthScope
import PrivacyPass.Library.Occurrence

/-
This file proves what the match rules of namespaces and of track names mean.
-/

namespace PrivacyPass.Moq

open Library

/-- All reads of a run stay inside their lists, and its answer says whether the property holds. -/
def Decides (run : Option Bool) (property : Prop) : Prop :=
  ∃ answer, run = some answer ∧ (answer = true ↔ property)

section Loops

variable {ns pattern : Namespace}

theorem Decides.congr {run : Option Bool} {property other : Prop} (decides : Decides run property)
    (same : property ↔ other) : Decides run other := by
  obtain ⟨answer, ran, iff⟩ := decides
  exact ⟨answer, ran, iff.trans same⟩

theorem decides_false {property : Prop} (fails : ¬ property) : Decides (some false) property :=
  ⟨false, rfl, iff_of_false Bool.false_ne_true fails⟩

/-- The inner loop finds out whether the pattern goes on at the offset as the namespace does. -/
theorem compareLoop_decides {offset : Nat} (fits : offset + pattern.length ≤ ns.length)
    (count : Nat) : ∀ i, i + count = pattern.length →
      Decides (compareLoop ns pattern offset count i)
        (pattern.drop i <+: ns.drop (offset + i)) := by
  induction count with
  | zero =>
      intro i whole
      have compared : pattern.drop i = [] := List.drop_of_length_le (Nat.le_of_eq whole.symm)
      rw [compared]
      exact ⟨true, rfl, iff_of_true rfl List.nil_prefix⟩
  | succ count ih =>
      intro i whole
      have inside : i < pattern.length := by omega
      have reached : offset + i < ns.length := by omega
      rw [compareLoop, List.getElem?_eq_getElem reached, List.getElem?_eq_getElem inside]
      dsimp only
      by_cases same : ns[offset + i] = pattern[i]
      · rw [if_neg (not_not.mpr same)]
        apply (ih (i + 1) (by omega)).congr
        rw [drop_prefix_drop_iff inside reached, and_iff_right same, Nat.add_assoc]
      · rw [if_pos same]
        apply decides_false
        rw [drop_prefix_drop_iff inside reached]
        exact fun both => same both.1

/-- The whole inner loop finds out whether the pattern stands at the offset. -/
theorem compareLoop_pattern {offset : Nat} (fits : offset + pattern.length ≤ ns.length) :
    Decides (compareLoop ns pattern offset pattern.length 0) (pattern <+: ns.drop offset) :=
  compareLoop_decides fits pattern.length 0 (Nat.zero_add _)

/-- The pattern stands at one of the starts from the first one on. -/
def StandsFrom (ns pattern : Namespace) (first : Nat) : Prop :=
  ∃ start, first ≤ start ∧ start + pattern.length ≤ ns.length ∧ pattern <+: ns.drop start

/-- A start either carries the pattern or leaves it to the later starts. -/
theorem standsFrom_iff {start : Nat} (fits : start + pattern.length ≤ ns.length) :
    StandsFrom ns pattern start ↔
      pattern <+: ns.drop start ∨ StandsFrom ns pattern (start + 1) := by
  constructor
  · intro ⟨place, later, room, stands⟩
    rcases Nat.eq_or_lt_of_le later with rfl | later
    · exact .inl stands
    · exact .inr ⟨place, later, room, stands⟩
  · rintro (stands | ⟨place, later, room, stands⟩)
    · exact ⟨start, Nat.le_refl start, fits, stands⟩
    · exact ⟨place, Nat.le_of_succ_le later, room, stands⟩

/-- The outer loop finds out whether the pattern stands at one of its starts. -/
theorem containsLoop_decides (start : Nat) :
    Decides (containsLoop ns pattern start) (StandsFrom ns pattern start) := by
  fun_induction containsLoop ns pattern start with
  | case1 start fits missed ih =>
      obtain ⟨answer, compared, iff⟩ := compareLoop_pattern fits
      rw [missed, Option.some.injEq] at compared
      subst compared
      apply ih.congr
      rw [standsFrom_iff fits, or_iff_right]
      exact fun stands => Bool.false_ne_true (iff.mpr stands)
  | case2 start fits found =>
      obtain ⟨answer, compared, iff⟩ := compareLoop_pattern fits
      cases answer with
      | false => exact absurd compared found
      | true =>
          rw [compared]
          exact ⟨true, rfl, iff_of_true rfl ((standsFrom_iff fits).mpr (.inl (iff.mp rfl)))⟩
  | case3 start ended =>
      apply decides_false
      intro ⟨place, later, room, _⟩
      omega

theorem standsFrom_zero : StandsFrom ns pattern 0 ↔ pattern <:+: ns := by
  rw [infix_iff_exists_drop]
  constructor
  · intro ⟨start, _, room, stands⟩
    exact ⟨start, room, stands⟩
  · intro ⟨start, room, stands⟩
    exact ⟨start, Nat.zero_le start, room, stands⟩

end Loops

/-- A rule asks for this relation between its pattern and a list. -/
def MatchType.Means {α : Type} (type : MatchType) (pattern list : List α) : Prop :=
  match type with
  | .matchExact => list = pattern
  | .matchPrefix => pattern <+: list
  | .matchSuffix => pattern <:+ list
  | .matchContains => pattern <:+: list

namespace NamespaceMatchRule

variable (rule : NamespaceMatchRule) (ns : Namespace)

theorem matchesLoop_decides :
    Decides (rule.matchesLoop ns) (rule.matchType.Means rule.pattern ns) := by
  unfold matchesLoop MatchType.Means
  cases rule.matchType with
  | matchExact =>
      dsimp only
      split
      · next other =>
          apply decides_false
          rintro rfl
          exact other rfl
      · next long =>
          have long := not_not.mp long
          rw [long]
          apply (compareLoop_pattern (by omega)).congr
          rw [List.drop_zero, prefix_iff_eq long]
  | matchPrefix =>
      dsimp only
      split
      · next shorter =>
          apply decides_false
          intro standing
          exact absurd standing.length_le (Nat.not_le.mpr shorter)
      · next long =>
          apply (compareLoop_pattern (by omega)).congr
          rw [List.drop_zero]
  | matchSuffix =>
      dsimp only
      split
      · next shorter =>
          apply decides_false
          intro standing
          exact absurd standing.length_le (Nat.not_le.mpr shorter)
      · next long =>
          apply (compareLoop_pattern (by omega)).congr
          rw [suffix_iff_prefix_drop (Nat.le_of_not_lt long)]
  | matchContains => exact (containsLoop_decides 0).congr standsFrom_zero

/-- A rule accepts the namespaces that it means. -/
theorem matchesNamespace_iff :
    rule.matchesNamespace ns = true ↔ rule.matchType.Means rule.pattern ns := by
  unfold matchesNamespace MatchType.Means
  cases rule.matchType with
  | matchExact => exact decide_eq_true_iff
  | matchPrefix => exact List.isPrefixOf_iff_prefix
  | matchSuffix => exact List.isSuffixOf_iff_suffix
  | matchContains =>
      rw [List.any_eq_true, infix_iff_exists_drop]
      apply exists_congr
      intro start
      rw [List.mem_range, decide_eq_true_eq, List.prefix_iff_eq_take, eq_comm]
      exact and_congr_left fun _ => by omega

/-- The loops read inside their lists and compute what the rule accepts. -/
theorem matchesLoop_eq : rule.matchesLoop ns = some (rule.matchesNamespace ns) := by
  obtain ⟨answer, ran, iff⟩ := rule.matchesLoop_decides ns
  rw [ran, Bool.eq_iff_iff.mpr (iff.trans (rule.matchesNamespace_iff ns).symm)]

end NamespaceMatchRule

/-- For each of the four types the loops read inside their lists and find out whether the pattern is
the namespace, its front, its back or a part of it. -/
theorem NamespaceMatchRule.matchesLoop_meaning (pattern ns : Namespace) :
    Decides ((⟨.matchExact, pattern⟩ : NamespaceMatchRule).matchesLoop ns) (ns = pattern) ∧
      Decides ((⟨.matchPrefix, pattern⟩ : NamespaceMatchRule).matchesLoop ns) (pattern <+: ns) ∧
      Decides ((⟨.matchSuffix, pattern⟩ : NamespaceMatchRule).matchesLoop ns) (pattern <:+ ns) ∧
      Decides ((⟨.matchContains, pattern⟩ : NamespaceMatchRule).matchesLoop ns) (pattern <:+: ns) ∧
      ∀ rule : NamespaceMatchRule, rule.matchesLoop ns = some (rule.matchesNamespace ns) := by
  have decides (type : MatchType) :=
    (⟨type, pattern⟩ : NamespaceMatchRule).matchesLoop_decides ns
  exact ⟨decides .matchExact, decides .matchPrefix, decides .matchSuffix, decides .matchContains,
    fun rule => rule.matchesLoop_eq ns⟩

section Tracks

variable {name pattern : Bytes}

/-- The search ends before the end of the name when the name has the pattern inside, unless both are
empty. -/
theorem search_ne_length_iff :
    search name pattern ≠ name.length ↔ pattern <:+: name ∧ ¬ (pattern = [] ∧ name = []) := by
  unfold search
  cases found : (List.range (name.length + 1 - pattern.length)).find? fun start =>
      (name.drop start).take pattern.length = pattern with
  | none =>
      rw [Option.getD_none]
      apply iff_of_false (fun other => other rfl)
      intro both
      obtain ⟨start, room, stands⟩ := infix_iff_exists_drop.mp both.1
      have missed := List.find?_eq_none.mp found start (List.mem_range.mpr (by omega))
      rw [decide_eq_true_eq] at missed
      exact missed (List.prefix_iff_eq_take.mp stands).symm
  | some start =>
      obtain ⟨stands, room, earlier⟩ := List.find?_range_eq_some.mp found
      rw [decide_eq_true_eq] at stands
      have room := List.mem_range.mp room
      have inside : pattern <:+: name :=
        infix_iff_exists_drop.mpr ⟨start, by omega, List.prefix_iff_eq_take.mpr stands.symm⟩
      rw [Option.getD_some, and_iff_right inside, Ne, not_iff_not]
      constructor
      · intro atEnd
        -- only the empty pattern stands at the end, and it stands at the front before
        have empty : pattern = [] := List.length_eq_zero_iff.mp (by omega)
        refine ⟨empty, List.length_eq_zero_iff.mp (Nat.eq_zero_of_not_pos fun positive => ?_)⟩
        have missed := earlier 0 (by omega)
        simp [empty] at missed
      · rintro ⟨rfl, rfl⟩
        simpa using room

namespace TrackNameMatchRule

variable (type : MatchType)

/-- A rule accepts the names that it means, but no rule finds the empty pattern in the empty name. -/
theorem matchesName_iff :
    (⟨type, pattern⟩ : TrackNameMatchRule).matchesName name = true ↔
      type.Means pattern name ∧ ¬ (type = .matchContains ∧ pattern = [] ∧ name = []) := by
  unfold matchesName MatchType.Means
  cases type with
  | matchExact => simp
  | matchPrefix => simp
  | matchSuffix => simp
  | matchContains =>
      simp only [decide_eq_true_eq, true_and]
      exact search_ne_length_iff

/-- A match of any type is a match of the whole pattern inside the name. -/
theorem infix_of_means (means : type.Means pattern name) : pattern <:+: name := by
  cases type with
  | matchExact =>
      obtain rfl : name = pattern := means
      exact List.infix_rfl
  | matchPrefix => exact List.IsPrefix.isInfix means
  | matchSuffix => exact List.IsSuffix.isInfix means
  | matchContains => exact means

/-- Elements of one byte each stand in the relation of the bytes. -/
theorem means_singletons :
    type.Means (pattern.map fun byte => [byte]) (name.map fun byte => [byte]) ↔
      type.Means pattern name := by
  have injective : Function.Injective fun byte : UInt8 => [byte] := List.singleton_injective
  cases type with
  | matchExact => exact (List.map_injective_iff.mpr injective).eq_iff
  | matchPrefix => exact List.prefix_map_iff_of_injective injective
  | matchSuffix => exact List.suffix_map_iff_of_injective injective
  | matchContains => exact infix_map_iff_of_injective injective

/-- The rules of track names and of namespaces agree on the elements of one byte, and every match is
a match inside the name, exactly when the pattern and the name are not both empty. -/
theorem matchesName_agrees_iff (pattern name : TrackName) :
    ((⟨type, pattern.map fun byte => [byte]⟩ : NamespaceMatchRule).matchesLoop
          (name.map fun byte => [byte]) =
        some ((⟨type, pattern⟩ : TrackNameMatchRule).matchesName name) ∧
      ((⟨type, pattern⟩ : TrackNameMatchRule).matchesName name = true →
        (⟨.matchContains, pattern⟩ : TrackNameMatchRule).matchesName name = true)) ↔
      ¬ (pattern = [] ∧ name = []) := by
  have answers : (⟨type, pattern.map fun byte => [byte]⟩ : NamespaceMatchRule).matchesLoop
        (name.map fun byte => [byte]) =
      some ((⟨type, pattern⟩ : TrackNameMatchRule).matchesName name) ↔
        (type.Means pattern name ↔ type.Means pattern name ∧
          ¬ (type = .matchContains ∧ pattern = [] ∧ name = [])) := by
    rw [NamespaceMatchRule.matchesLoop_eq, Option.some.injEq, Bool.eq_iff_iff, matchesName_iff,
      NamespaceMatchRule.matchesNamespace_iff, means_singletons]
  rw [answers, matchesName_iff, matchesName_iff]
  constructor
  · rintro ⟨agrees, contained⟩ ⟨rfl, rfl⟩
    have means : type.Means ([] : Bytes) [] := by
      cases type with
      | matchExact => rfl
      | matchPrefix => exact List.nil_prefix
      | matchSuffix => exact List.nil_suffix
      | matchContains => exact List.nil_infix
    have contains := contained (agrees.mp means)
    exact contains.2 ⟨rfl, rfl, rfl⟩
  · intro nonempty
    refine ⟨(and_iff_left fun both => nonempty both.2).symm, fun both => ⟨?_, fun both => nonempty both.2⟩⟩
    exact infix_of_means type both.1

/-- The empty pattern is the front of the empty name and is not found inside it, and the rule of the
namespaces finds it. -/
theorem matchesName_empty_differs :
    (⟨.matchPrefix, []⟩ : TrackNameMatchRule).matchesName [] = true ∧
      (⟨.matchContains, []⟩ : TrackNameMatchRule).matchesName [] = false ∧
      (⟨.matchContains, ([] : Bytes).map fun byte => [byte]⟩ : NamespaceMatchRule).matchesLoop
          (([] : Bytes).map fun byte => [byte]) = some true := by
  refine ⟨rfl, rfl, ?_⟩
  simp [NamespaceMatchRule.matchesLoop, containsLoop, compareLoop]

end TrackNameMatchRule

end Tracks

end PrivacyPass.Moq
