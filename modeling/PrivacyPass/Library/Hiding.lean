import Mathlib.GroupTheory.SpecificGroups.Cyclic.Basic
import Mathlib.NumberTheory.ArithmeticFunction.Carmichael
import Mathlib.Probability.Distributions.Uniform
import PrivacyPass.Library.BlindEvaluation
import PrivacyPass.Library.BlindSignature

/-
This file develops random factors that hide what they multiply.
A permutation of the factors exchanges two messages, so the products of both have one law.
-/

namespace PrivacyPass.Library.Hiding

section Laws

variable {α β : Type} [Fintype α] [Nonempty α]

/-- A permutation keeps the uniform law. -/
theorem map_uniform (permutation : Equiv.Perm α) :
    (PMF.uniformOfFintype α).map permutation = PMF.uniformOfFintype α := by
  ext choice
  rw [PMF.map_apply, tsum_eq_single (permutation.symm choice)]
  · simp
  · intro other different
    rw [if_neg]
    rintro rfl
    exact different (permutation.symm_apply_apply other).symm

/-- Two results that a permutation of the choices exchanges have one law. -/
theorem law_eq {left right : α → β} (permutation : Equiv.Perm α)
    (exchanges : ∀ choice, right (permutation choice) = left choice) :
    (PMF.uniformOfFintype α).map left = (PMF.uniformOfFintype α).map right := by
  calc (PMF.uniformOfFintype α).map left
      = (PMF.uniformOfFintype α).map (right ∘ permutation) := by
        congr 1
        funext choice
        exact (exchanges choice).symm
    _ = (PMF.uniformOfFintype α).map right := by rw [← PMF.map_comp, map_uniform]

end Laws

section Powers

variable {G : Type*} [CommGroup G] {e : ℕ}

/-- An exponent that another one undoes is prime to the exponent of the group. -/
theorem coprime_of_paired {d : ℕ} (paired : BlindSignature.Paired G e d) :
    e.Coprime (Monoid.exponent G) := by
  rcases Nat.eq_zero_or_pos (e * d) with zero | positive
  · have one : Monoid.exponent G ∣ 1 := by
      apply Monoid.exponent_dvd_of_forall_pow_eq_one
      intro value
      rw [pow_one, ← paired value, zero, pow_zero]
    rw [Nat.dvd_one.mp one]
    exact Nat.coprime_one_right e
  · have divides : Monoid.exponent G ∣ e * d - 1 := by
      apply Monoid.exponent_dvd_of_forall_pow_eq_one
      intro value
      apply mul_right_cancel (b := value)
      rw [← pow_succ, Nat.sub_add_cancel positive, paired, one_mul]
    have both : e.gcd (Monoid.exponent G) ∣ 1 := by
      have step := Nat.dvd_sub ((Nat.gcd_dvd_left e (Monoid.exponent G)).trans (dvd_mul_right e d))
        ((Nat.gcd_dvd_right e (Monoid.exponent G)).trans divides)
      rwa [Nat.sub_sub_self positive] at step
    exact Nat.dvd_one.mp both

variable [Finite G]

/-- An exponent that is prime to the exponent of the group permutes the group. -/
theorem pow_bijective (coprime : e.Coprime (Monoid.exponent G)) :
    Function.Bijective fun value : G => value ^ e := by
  apply Finite.injective_iff_bijective.mp
  intro left right same
  have vanishes : (left / right) ^ e = 1 := by
    rw [div_pow, div_eq_one]
    exact same
  have divides := Nat.dvd_gcd (orderOf_dvd_of_pow_eq_one vanishes)
    (Monoid.order_dvd_exponent (left / right))
  rw [coprime, Nat.dvd_one, orderOf_eq_one_iff, div_eq_one] at divides
  exact divides

/-- Each product with a power is a product with exactly one power for another message. -/
theorem existsUnique_pow (coprime : e.Coprime (Monoid.exponent G)) (left right factor : G) :
    ∃! other, right * other ^ e = left * factor ^ e := by
  obtain ⟨other, power, unique⟩ :=
    (pow_bijective coprime).existsUnique (right⁻¹ * (left * factor ^ e))
  refine ⟨other, ?_, fun another same => unique another (eq_inv_mul_iff_mul_eq.mpr same)⟩
  exact eq_inv_mul_iff_mul_eq.mp power

end Powers

section Residues

variable {n e : ℕ}

/-- Two products have one remainder exactly when they are one residue. -/
theorem product_mod_eq_iff {left right factor other : ℕ} :
    right * (other ^ e % n) % n = left * (factor ^ e % n) % n ↔
      (right : ZMod n) * other ^ e = left * factor ^ e := by
  rw [← ZMod.natCast_eq_natCast_iff']
  push_cast [ZMod.natCast_mod]
  rfl

variable [NeZero n]

/-- The Carmichael function is the exponent of the units. -/
theorem coprime_exponent (coprime : e.Coprime (ArithmeticFunction.carmichael n)) :
    e.Coprime (Monoid.exponent (ZMod n)ˣ) := by
  rwa [← ArithmeticFunction.carmichael_eq_exponent']

/-- The public exponent of a key pair is prime to the Carmichael function of the modulus. -/
theorem coprime_carmichael {d : ℕ} (exponents : BlindSignature.RsaExponents n e d) :
    e.Coprime (ArithmeticFunction.carmichael n) := by
  rw [ArithmeticFunction.carmichael_eq_exponent']
  have paired : BlindSignature.Paired (ZMod n)ˣ e d := fun value => Units.ext (by
    rw [Units.val_pow_eq_pow_val]
    exact exponents.paired (value : ZMod n))
  exact coprime_of_paired paired

/-- For each unit there is exactly one unit that gives another message the same product. -/
theorem existsUnique_unit (coprime : e.Coprime (ArithmeticFunction.carmichael n)) {left right : ℕ}
    (leftUnit : left.Coprime n) (rightUnit : right.Coprime n) {factor : ℕ} (unit : factor.Coprime n) :
    ∃! other, (other < n ∧ other.Coprime n) ∧
      right * (other ^ e % n) % n = left * (factor ^ e % n) % n := by
  obtain ⟨other, same, unique⟩ := existsUnique_pow (coprime_exponent coprime)
    (ZMod.unitOfCoprime left leftUnit) (ZMod.unitOfCoprime right rightUnit)
    (ZMod.unitOfCoprime factor unit)
  refine ⟨(other : ZMod n).val, ⟨⟨ZMod.val_lt _, ZMod.val_coe_unit_coprime other⟩, ?_⟩, ?_⟩
  · have equal := congrArg Units.val same
    push_cast [ZMod.coe_unitOfCoprime] at equal
    rwa [product_mod_eq_iff, ZMod.natCast_zmod_val]
  · intro another ⟨⟨below, prime⟩, equal⟩
    have found := unique (ZMod.unitOfCoprime another prime) (Units.ext (by
      push_cast [ZMod.coe_unitOfCoprime]
      exact product_mod_eq_iff.mp equal))
    rw [← found, ZMod.coe_unitOfCoprime, ZMod.val_natCast, Nat.mod_eq_of_lt below]

/-- One unit exchanges two messages, whatever the factor is. -/
theorem exists_exchange (coprime : e.Coprime (ArithmeticFunction.carmichael n)) {left right : ℕ}
    (leftUnit : left.Coprime n) (rightUnit : right.Coprime n) :
    ∃ unit : (ZMod n)ˣ, ∀ factor : ZMod n,
      (right : ZMod n) * (unit * factor) ^ e = left * factor ^ e := by
  obtain ⟨unit, same, -⟩ := existsUnique_pow (coprime_exponent coprime)
    (ZMod.unitOfCoprime left leftUnit) (ZMod.unitOfCoprime right rightUnit) 1
  have equal := congrArg Units.val same
  push_cast [ZMod.coe_unitOfCoprime, one_pow, mul_one] at equal
  refine ⟨unit, fun factor => ?_⟩
  rw [mul_pow, ← mul_assoc, equal]

end Residues

section Draws

variable {β : Type} {n : ℕ}

/-- These numbers are drawn below a bound, each independent of the others. -/
noncomputable def uniformDraws (n : ℕ) (positive : 0 < n) (count : ℕ) : PMF (List ℕ) :=
  haveI : NeZero n := ⟨positive.ne'⟩
  (PMF.uniformOfFintype (Fin count → ZMod n)).map fun draws => List.ofFn fun index => (draws index).val

/-- Two results that a unit exchanges in all draws have one law. -/
theorem map_uniformDraws_eq (positive : 0 < n) (count : ℕ) {left right : List ℕ → β} (unit : (ZMod n)ˣ)
    (exchanges : ∀ draws : List (ZMod n),
      right (draws.map fun draw => ((unit : ZMod n) * draw).val) = left (draws.map ZMod.val)) :
    (uniformDraws n positive count).map left = (uniformDraws n positive count).map right := by
  have : NeZero n := ⟨positive.ne'⟩
  rw [uniformDraws, PMF.map_comp, PMF.map_comp]
  refine law_eq (Equiv.piCongrRight fun _ => Units.mulLeft unit) fun draws => ?_
  have moved := exchanges (List.ofFn draws)
  rw [List.map_ofFn, List.map_ofFn] at moved
  exact moved

/-- A result is as probable as its image under a unit. -/
theorem map_uniformDraws_apply (positive : 0 < n) (count : ℕ) {result : List ℕ → β} {first second : β}
    (unit : (ZMod n)ˣ) (moves : ∀ draws : List (ZMod n),
      result (draws.map fun draw => ((unit : ZMod n) * draw).val) = second ↔
        result (draws.map ZMod.val) = first) :
    (uniformDraws n positive count).map result first =
      (uniformDraws n positive count).map result second := by
  classical
  have event (law : PMF (List ℕ)) (value : β) :
      law.map result value = law.map (fun draws => result draws = value) True := by
    rw [PMF.map_apply, PMF.map_apply]
    apply tsum_congr
    intro draws
    by_cases same : result draws = value
    · rw [if_pos same.symm, if_pos (eq_true same).symm]
    · rw [if_neg fun equal => same equal.symm, if_neg fun equal => same (equal.mp trivial)]
  have same := @map_uniformDraws_eq Prop n positive count (fun draws => result draws = first)
    (fun draws => result draws = second) unit fun draws => propext (moves draws)
  rw [event, event, same]

/-- The draws are all lists of the length with members below the bound. -/
theorem mem_support_uniformDraws (positive : 0 < n) (count : ℕ) (draws : List ℕ) :
    draws ∈ (uniformDraws n positive count).support ↔
      draws.length = count ∧ ∀ draw ∈ draws, draw < n := by
  have : NeZero n := ⟨positive.ne'⟩
  rw [uniformDraws, PMF.mem_support_map_iff]
  constructor
  · rintro ⟨choice, -, rfl⟩
    refine ⟨List.length_ofFn, fun draw member => ?_⟩
    obtain ⟨index, rfl⟩ := List.mem_ofFn.mp member
    exact ZMod.val_lt _
  · rintro ⟨rfl, below⟩
    refine ⟨fun index => (draws.get index : ZMod n), PMF.mem_support_uniformOfFintype _, ?_⟩
    apply List.ext_get List.length_ofFn
    intro index _ inside
    rw [List.get_ofFn]
    exact ZMod.val_cast_of_lt (below _ (List.get_mem draws _))

end Draws

section Multiples

variable {G : Type} [AddCommGroup G] {q : ℕ} {left right : G}

/-- In a group of prime order one unit exchanges two points, whatever the scalar is. -/
theorem exists_exchange_nsmul (prime : q.Prime) (card : Nat.card G = q) (leftNonzero : left ≠ 0)
    (rightNonzero : right ≠ 0) :
    ∃ unit : (ZMod q)ˣ, ∀ scalar : ZMod q, (unit * scalar).val • right = scalar.val • left := by
  have : Fact q.Prime := ⟨prime⟩
  have torsion : q • right = 0 := by
    rw [← card]
    exact card_nsmul_eq_zero'
  obtain ⟨k, multiple⟩ := AddSubmonoid.mem_multiples_iff left right |>.mp
    (mem_multiples_of_prime_card card rightNonzero)
  have nonzero : (k : ZMod q) ≠ 0 := by
    intro vanishes
    obtain ⟨times, rfl⟩ := (ZMod.natCast_eq_zero_iff k q).mp vanishes
    rw [mul_nsmul, torsion, nsmul_zero] at multiple
    exact leftNonzero multiple.symm
  refine ⟨Units.mk0 (k : ZMod q) nonzero, fun scalar => ?_⟩
  have residue : (↑(Units.mk0 (k : ZMod q) nonzero) * scalar).val ≡ scalar.val * k [MOD q] := by
    rw [← ZMod.natCast_eq_natCast_iff]
    push_cast [ZMod.natCast_zmod_val]
    rw [Units.val_mk0, mul_comm]
  rw [BlindEvaluation.nsmul_congr torsion residue, mul_nsmul', multiple]

/-- For each scalar there is exactly one scalar that moves another point to the same point. -/
theorem existsUnique_scalar (prime : q.Prime) (card : Nat.card G = q) (leftNonzero : left ≠ 0)
    (rightNonzero : right ≠ 0) {scalar : ℕ} (positive : 1 ≤ scalar) (below : scalar < q) :
    ∃! other, (1 ≤ other ∧ other < q) ∧ other • right = scalar • left := by
  have : Fact q.Prime := ⟨prime⟩
  have torsion (point : G) : q • point = 0 := by
    rw [← card]
    exact card_nsmul_eq_zero'
  obtain ⟨unit, exchanges⟩ := exists_exchange_nsmul prime card leftNonzero rightNonzero
  have moved := exchanges scalar
  rw [ZMod.val_natCast, Nat.mod_eq_of_lt below] at moved
  refine ⟨(unit * (scalar : ZMod q)).val, ⟨⟨?_, ZMod.val_lt _⟩, moved⟩, ?_⟩
  · rw [Nat.one_le_iff_ne_zero]
    intro zero
    rw [zero, zero_nsmul] at moved
    exact BlindEvaluation.nsmul_ne_zero prime (torsion left) leftNonzero positive below moved.symm
  · intro another ⟨⟨_, reduced⟩, equal⟩
    exact BlindEvaluation.nsmul_injective prime (torsion right) rightNonzero reduced (ZMod.val_lt _)
      (equal.trans moved.symm)

end Multiples

end PrivacyPass.Library.Hiding
