import Mathlib.Probability.ProbabilityMassFunction.Constructions
import Mathlib.Data.Multiset.MapFold

/-
This file develops sessions whose views do not tell which session made which result.
-/

namespace PrivacyPass.Library.Unlinkability

variable {α ν ρ : Type}

/-- The observer sees the view of a session if the session succeeds. -/
def seen (session : α → Option (ν × ρ)) (choice : α) : Option ν := (session choice).map Prod.fst

/-- All successes of a session with a possible choice make one result. -/
def Makes (law : PMF α) (session : α → Option (ν × ρ)) (result : ρ) : Prop :=
  ∀ choice ∈ law.support, ∀ view made, session choice = some (view, made) → made = result

/-- The sessions are run in their order with choices of their own, and all of them have to succeed. -/
noncomputable def run (law : PMF α) : List (α → Option (ν × ρ)) → PMF (Option (List ν × List ρ))
  | [] => PMF.pure (some ([], []))
  | session :: rest =>
      law.bind fun choice => (run law rest).map fun others =>
        (session choice).bind fun made => others.map fun out => (made.1 :: out.1, made.2 :: out.2)

/-- The views of sessions that are seen with one law. -/
noncomputable def views (law : PMF (Option ν)) : Nat → PMF (Option (List ν))
  | 0 => PMF.pure (some [])
  | count + 1 =>
      law.bind fun view => (views law count).map fun others =>
        view.bind fun view => others.map fun rest => view :: rest

variable {law : PMF α} {view : PMF (Option ν)}

/-- Laws that agree on the possible choices are equal. -/
theorem bind_congr {β : Type} {left right : α → PMF β}
    (same : ∀ choice ∈ law.support, left choice = right choice) : law.bind left = law.bind right := by
  ext value
  rw [PMF.bind_apply, PMF.bind_apply]
  apply tsum_congr
  intro choice
  by_cases possible : choice ∈ law.support
  · rw [same choice possible]
  · rw [PMF.mem_support_iff, not_not] at possible
    rw [possible, zero_mul, zero_mul]

/-- A session that adds one result to what is shown of it makes this result. -/
theorem makes_of_map {session : α → Option (ν × ρ)} {shown : α → Option ν} {result : ρ}
    (adds : ∀ choice ∈ law.support, session choice = (shown choice).map fun view => (view, result)) :
    Makes law session result := by
  intro choice possible view made ended
  rw [adds choice possible] at ended
  obtain ⟨value, -, equal⟩ := Option.map_eq_some_iff.mp ended
  exact (congrArg Prod.snd equal).symm

/-- What is seen of such a session has the law of what is shown of it. -/
theorem map_seen {session : α → Option (ν × ρ)} {shown : α → Option ν} {result : ρ}
    (adds : ∀ choice ∈ law.support, session choice = (shown choice).map fun view => (view, result)) :
    law.map (seen session) = law.map shown := by
  apply bind_congr
  intro choice possible
  rw [Function.comp_apply, Function.comp_apply, seen, adds choice possible, Option.map_map]
  exact congrArg PMF.pure Option.map_id'

/-- A session adds its result to what is seen of it. -/
theorem Makes.session_eq {session : α → Option (ν × ρ)} {result : ρ} (makes : Makes law session result)
    {choice : α} (possible : choice ∈ law.support) :
    session choice = (seen session choice).map fun view => (view, result) := by
  unfold seen
  cases found : session choice with
  | none => rfl
  | some made =>
      obtain ⟨view, other⟩ := made
      rw [makes choice possible view other found]
      rfl

/-- The views of a run say nothing about the results, which are made in their order. -/
theorem run_eq {sessions : List (α → Option (ν × ρ))} {results : List ρ}
    (alike : List.Forall₂ (fun session result => law.map (seen session) = view ∧ Makes law session result)
      sessions results) :
    run law sessions = (views view results.length).map (Option.map fun seen => (seen, results)) := by
  induction alike with
  | nil => rw [run, List.length_nil, views, PMF.pure_map, Option.map_some]
  | @cons session result sessions results first rest ih =>
      obtain ⟨same, makes⟩ := first
      rw [run, List.length_cons, views, ih, ← same, PMF.bind_map, PMF.map_bind]
      apply bind_congr
      intro choice possible
      rw [Function.comp_apply, PMF.map_comp, PMF.map_comp, makes.session_eq possible]
      congr 1
      funext others
      cases seen session choice <;> cases others <;> rfl

/-- The observer gets the views in their order, and the results without an order. -/
noncomputable def published (law : PMF α) (sessions : List (α → Option (ν × ρ))) :
    PMF (Option (List ν × Multiset ρ)) :=
  (run law sessions).map (Option.map fun out => (out.1, (out.2 : Multiset ρ)))

/-- Sessions that make one result each have a list of results. -/
theorem exists_results {sessions : List (α → Option (ν × ρ))}
    (alike : ∀ session ∈ sessions, law.map (seen session) = view ∧ ∃ result, Makes law session result) :
    ∃ results, List.Forall₂ (fun session result => law.map (seen session) = view ∧ Makes law session result)
      sessions results := by
  induction sessions with
  | nil => exact ⟨[], .nil⟩
  | cons session sessions ih =>
      obtain ⟨same, result, makes⟩ := alike session List.mem_cons_self
      obtain ⟨results, rest⟩ := ih fun other member => alike other (List.mem_cons_of_mem _ member)
      exact ⟨result :: results, .cons ⟨same, makes⟩ rest⟩

/-- Sessions that look alike are unlinkable: in any other order they are published with one law. -/
theorem published_perm (view : PMF (Option ν)) {sessions others : List (α → Option (ν × ρ))}
    (alike : ∀ session ∈ sessions, law.map (seen session) = view ∧ ∃ result, Makes law session result)
    (permuted : sessions.Perm others) : published law sessions = published law others := by
  obtain ⟨results, made⟩ := exists_results alike
  obtain ⟨otherResults, otherMade, shuffled⟩ := List.perm_comp_forall₂ permuted.symm made
  rw [published, published, run_eq made, run_eq otherMade, PMF.map_comp, PMF.map_comp,
    shuffled.length_eq]
  congr 1
  funext seen
  rw [Function.comp_apply, Function.comp_apply, Option.map_map, Option.map_map]
  congr 1
  funext views
  exact Prod.ext rfl (Multiset.coe_eq_coe.mpr shuffled.symm)

end PrivacyPass.Library.Unlinkability
