import PrivacyPass.Construction.Crypto.HashToCurve
import PrivacyPass.Library.SimplifiedSwu
import PrivacyPass.Proof.Crypto.Bignum

/-
This file proves that the map from numbers to points always lands on the curve.
-/

namespace PrivacyPass.Crypto

open Library SimplifiedSwu

section Selection

/-- The masks take all bytes from one side. -/
theorem selectBytes_eq (takeRight : Bool) {left right : Bytes} (same : left.length = right.length) :
    selectBytes takeRight left right = if takeRight then right else left := by
  induction left generalizing right with
  | nil =>
      obtain rfl := List.length_eq_zero_iff.mp same.symm
      cases takeRight <;> rfl
  | cons l left ih =>
      cases right with
      | nil => cases same
      | cons r right =>
          have rest := ih (Nat.succ.inj same)
          unfold selectBytes at rest ⊢
          rw [List.zipWith_cons_cons, rest]
          cases takeRight with
          | false => simp
          | true =>
              have ones : (0 : UInt8) - 1 = -1 := rfl
              simp only [if_true, ones, UInt8.neg_one_and, ← UInt8.xor_assoc, UInt8.xor_self,
                UInt8.zero_xor]

variable [CurveBackend]

/-- The selection takes one of two numbers that fit into the bytes of the modulus. -/
theorem selectNumber_eq (takeRight : Bool) {left right : Nat}
    (leftFits : left ≤ CurveBackend.fieldModulus) (rightFits : right ≤ CurveBackend.fieldModulus) :
    selectNumber takeRight left right = if takeRight then right else left := by
  have fits := lt_bnNumBytes CurveBackend.fieldModulus
  have leftBytes := leftFits.trans_lt fits
  have rightBytes := rightFits.trans_lt fits
  unfold selectNumber
  dsimp only
  rw [zeroPadded_of_lt leftBytes, zeroPadded_of_lt rightBytes, selectBytes_eq takeRight (by simp)]
  cases takeRight with
  | false => exact BigEndian.ofBytes_toBytes leftBytes
  | true => exact BigEndian.ofBytes_toBytes rightBytes

end Selection

section Map

variable [CurveBackend] [prime : Fact (Nat.Prime CurveBackend.fieldModulus)]

/-- The coordinates of the points are the remainders of the modulus. -/
abbrev Coordinate : Type := ZMod CurveBackend.fieldModulus

theorem curveValue_spec (x : Nat) :
    curveValue x < CurveBackend.fieldModulus ∧
      (curveValue x : Coordinate) = cubic (CurveBackend.curveA : Coordinate) CurveBackend.curveB x := by
  refine ⟨Nat.mod_lt _ prime.out.pos, ?_⟩
  rw [curveValue, cubic]
  push_cast [ZMod.natCast_mod]
  ring

theorem squareRoot_spec (value : Nat) :
    squareRoot value < CurveBackend.fieldModulus ∧
      (squareRoot value : Coordinate) = (value : Coordinate) ^ ((CurveBackend.fieldModulus + 1) / 4) := by
  refine ⟨Nat.mod_lt _ prime.out.pos, ?_⟩
  have shift : (CurveBackend.fieldModulus + 1) >>> 2 = (CurveBackend.fieldModulus + 1) / 4 :=
    Nat.shiftRight_eq_div_pow _ 2
  change ((value ^ ((CurveBackend.fieldModulus + 1) >>> 2) % CurveBackend.fieldModulus : Nat) : Coordinate) = _
  rw [ZMod.natCast_mod, Nat.cast_pow, shift]

/-- A number that is not zero in the field has its inverse there. -/
theorem bnModInverse_of_ne_zero {number : Nat} (nonzero : (number : Coordinate) ≠ 0) :
    ∃ inverse, bnModInverse number CurveBackend.fieldModulus = some inverse ∧
      (inverse : Coordinate) = (number : Coordinate)⁻¹ := by
  have coprime : Nat.gcd number CurveBackend.fieldModulus = 1 := by
    apply Nat.Coprime.symm
    apply prime.out.coprime_iff_not_dvd.mpr
    intro divides
    exact nonzero ((ZMod.natCast_eq_zero_iff _ _).mpr divides)
  have found : bnModInverse number CurveBackend.fieldModulus =
      some (Nat.gcdA number CurveBackend.fieldModulus % (CurveBackend.fieldModulus : Int)).toNat := by
    rw [bnModInverse, if_pos coprime]
  refine ⟨_, found, ?_⟩
  exact eq_inv_of_mul_eq_one_right (bnModInverse_spec prime.out.pos found).1

section Candidates

variable (Z : Int) (u : Nat)

theorem sswuTv3_spec :
    sswuTv3 Z u < CurveBackend.fieldModulus ∧
      (sswuTv3 Z u : Coordinate) = factor (Z : Coordinate) u := by
  have square := (bnModMul_spec prime.out.pos (u : Int) u).2
  obtain ⟨below, product⟩ := bnModMul_spec prime.out.pos Z (bnModSqr u CurveBackend.fieldModulus)
  refine ⟨below, ?_⟩
  rw [sswuTv3, product, bnModSqr, Int.cast_natCast, square, factor]
  push_cast
  ring

theorem sswuTv5_spec :
    sswuTv5 Z u < CurveBackend.fieldModulus ∧
      (sswuTv5 Z u : Coordinate) = factor (Z : Coordinate) u ^ 2 + factor (Z : Coordinate) u := by
  have square := (bnModMul_spec prime.out.pos (sswuTv3 Z u : Int) (sswuTv3 Z u)).2
  obtain ⟨below, sum⟩ := bnModAdd_spec prime.out.pos
    (bnModSqr (sswuTv3 Z u) CurveBackend.fieldModulus) (sswuTv3 Z u)
  refine ⟨below, ?_⟩
  have third := (sswuTv3_spec Z u).2
  unfold sswuTv5
  dsimp only
  rw [sum, bnModSqr, Int.cast_natCast, square, Int.cast_natCast, third]
  ring

theorem sswuTv6_spec :
    (sswuTv6 Z u : Coordinate) = denominator (CurveBackend.curveA : Coordinate) (Z : Coordinate) u := by
  obtain ⟨below, fifth⟩ := sswuTv5_spec Z u
  have zero : sswuTv5 Z u = 0 ↔
      factor (Z : Coordinate) u ^ 2 + factor (Z : Coordinate) u = 0 := by
    rw [← fifth, ← remainder_inj below prime.out.pos, Nat.cast_zero]
  unfold sswuTv6 denominator
  simp only [zero]
  split
  · rw [(bnModMul_spec prime.out.pos Z CurveBackend.curveA).2]
    push_cast
    rfl
  · rw [(bnModMul_spec prime.out.pos _ _).2]
    push_cast [ZMod.natCast_self]
    rw [fifth, zero_sub]

end Candidates

section Root

variable (remainder : CurveBackend.fieldModulus % 4 = 3)

include remainder

theorem squareRoot_sq_iff (value : Nat) :
    (squareRoot value : Coordinate) ^ 2 = value ↔ IsSquare (value : Coordinate) := by
  have order : Fintype.card Coordinate % 4 = 3 := by rwa [ZMod.card]
  have root := root_sq_iff order (value : Coordinate)
  rwa [ZMod.card, ← (squareRoot_spec value).2] at root

/-- The comparison of the bytes tells the squares. -/
theorem sameBytes_iff {value : Nat} (below : value < CurveBackend.fieldModulus) :
    zeroPadded (bnModSqr (squareRoot value) CurveBackend.fieldModulus)
        (bnNumBytes CurveBackend.fieldModulus) =
      zeroPadded value (bnNumBytes CurveBackend.fieldModulus) ↔ IsSquare (value : Coordinate) := by
  obtain ⟨reduced, square⟩ := bnModMul_spec prime.out.pos (squareRoot value : Int) (squareRoot value)
  have fits := lt_bnNumBytes CurveBackend.fieldModulus
  rw [bnModSqr, zeroPadded_inj (reduced.trans fits) (below.trans fits), ← remainder_inj reduced below, square,
    ← squareRoot_sq_iff remainder, sq, Int.cast_natCast]

/-- The root of a square that is not zero can be taken with either sign. -/
theorem squareRoot_curve {x : Nat} (square : IsSquare (curveValue x : Coordinate))
    (nonzero : (curveValue x : Coordinate) ≠ 0) :
    0 < squareRoot (curveValue x) ∧
      squareRoot (curveValue x) * squareRoot (curveValue x) % CurveBackend.fieldModulus = curveValue x := by
  have root := (squareRoot_sq_iff remainder _).mpr square
  constructor
  · apply Nat.pos_of_ne_zero
    intro zero
    rw [zero, Nat.cast_zero, zero_pow two_ne_zero] at root
    exact nonzero root.symm
  · rw [← remainder_inj (Nat.mod_lt _ prime.out.pos) (curveValue_spec x).1, ZMod.natCast_mod, Nat.cast_mul,
      ← sq, root]

end Root

/-- The sign of the ordinate is taken from the input, and its square stays. -/
theorem selectSign {y : Nat} (odd : CurveBackend.fieldModulus % 2 = 1) (positive : 0 < y)
    (below : y < CurveBackend.fieldModulus) (u : Nat) :
    let signed := selectNumber (decide (u % 2 ≠ y % 2)) y (CurveBackend.fieldModulus - y)
    0 < signed ∧ signed < CurveBackend.fieldModulus ∧ signed % 2 = u % 2 ∧
      signed * signed % CurveBackend.fieldModulus = y * y % CurveBackend.fieldModulus := by
  intro signed
  have choice : signed = if u % 2 ≠ y % 2 then CurveBackend.fieldModulus - y else y := by
    change selectNumber _ _ _ = _
    rw [selectNumber_eq _ below.le (Nat.sub_le _ _)]
    simp only [decide_eq_true_eq]
  rw [choice]
  split
  · next differs =>
      refine ⟨by omega, by omega, by omega, ?_⟩
      have reduced (number : Nat) := Nat.mod_lt number prime.out.pos
      rw [← remainder_inj (reduced _) (reduced _), ZMod.natCast_mod, ZMod.natCast_mod]
      push_cast [Nat.cast_sub below.le, ZMod.natCast_self]
      ring
  · next same =>
      exact ⟨positive, below, by omega, rfl⟩

/-- The constant of the map suits the curve. -/
structure SuitsCurve (Z : Int) : Prop where
  remainder : CurveBackend.fieldModulus % 4 = 3
  linear : (CurveBackend.curveA : Coordinate) ≠ 0
  constant : ¬ IsSquare (Z : Coordinate)
  special : IsSquare (cubic (CurveBackend.curveA : Coordinate) CurveBackend.curveB
    (CurveBackend.curveB / (Z * CurveBackend.curveA)))
  rootless : ∀ x : Coordinate, cubic (CurveBackend.curveA : Coordinate) CurveBackend.curveB x ≠ 0

section Selected

variable {Z : Int} (suits : SuitsCurve Z) (u : Nat)

include suits

/-- The selection takes a candidate whose ordinate is a root. -/
theorem selected_isSquare {x1 x2 : Nat} (below1 : x1 < CurveBackend.fieldModulus)
    (below2 : x2 < CurveBackend.fieldModulus)
    (cast1 : (x1 : Coordinate) = first (CurveBackend.curveA : Coordinate) CurveBackend.curveB Z u)
    (cast2 : (x2 : Coordinate) = second (CurveBackend.curveA : Coordinate) CurveBackend.curveB Z u) :
    let y1 := squareRoot (curveValue x1)
    let isSquare := decide (zeroPadded (bnModSqr y1 CurveBackend.fieldModulus)
        (bnNumBytes CurveBackend.fieldModulus) =
      zeroPadded (curveValue x1) (bnNumBytes CurveBackend.fieldModulus))
    ∃ x, x < CurveBackend.fieldModulus ∧ IsSquare (curveValue x : Coordinate) ∧
      selectNumber (!isSquare) x1 x2 = x ∧
      selectNumber (!isSquare) y1 (squareRoot (curveValue x2)) = squareRoot (curveValue x) := by
  intro y1 isSquare
  have tells : isSquare = true ↔ IsSquare (curveValue x1 : Coordinate) := by
    rw [← sameBytes_iff suits.remainder (curveValue_spec x1).1]
    exact decide_eq_true_iff
  have root (value : Nat) := (squareRoot_spec value).1.le
  rw [selectNumber_eq _ below1.le below2.le, selectNumber_eq _ (root _) (root _)]
  by_cases square : IsSquare (curveValue x1 : Coordinate)
  · rw [tells.mpr square]
    exact ⟨x1, below1, square, rfl, rfl⟩
  · have fails : isSquare = false := Bool.eq_false_iff.mpr (mt tells.mp square)
    rw [fails]
    refine ⟨x2, below2, ?_, rfl, rfl⟩
    rw [(curveValue_spec x1).2, cast1] at square
    rw [(curveValue_spec x2).2, cast2]
    exact isSquare_second suits.linear suits.constant suits.special square

/-- The inverse exists, and the candidates are those of the map over the field. -/
theorem candidates_spec :
    ∃ inverse, bnModInverse (sswuTv6 Z u) CurveBackend.fieldModulus = some inverse ∧
      let tv4 := bnModMul (bnModAdd (sswuTv5 Z u) 1 CurveBackend.fieldModulus) CurveBackend.curveB
        CurveBackend.fieldModulus
      let x1 := bnModMul tv4 inverse CurveBackend.fieldModulus
      let x2 := bnModMul (sswuTv3 Z u) x1 CurveBackend.fieldModulus
      x1 < CurveBackend.fieldModulus ∧ x2 < CurveBackend.fieldModulus ∧
        (x1 : Coordinate) = first (CurveBackend.curveA : Coordinate) CurveBackend.curveB Z u ∧
        (x2 : Coordinate) = second (CurveBackend.curveA : Coordinate) CurveBackend.curveB Z u := by
  have positive := prime.out.pos
  have nonzero : (Z : Coordinate) ≠ 0 := by
    intro zero
    exact suits.constant (zero ▸ IsSquare.zero)
  have bottom := denominator_ne_zero (u := (u : Coordinate)) suits.linear nonzero
  rw [← sswuTv6_spec] at bottom
  obtain ⟨inverse, found, inverts⟩ := bnModInverse_of_ne_zero bottom
  refine ⟨inverse, found, ?_⟩
  intro tv4 x1 x2
  obtain ⟨below1, product1⟩ := bnModMul_spec positive (tv4 : Int) inverse
  obtain ⟨below2, product2⟩ := bnModMul_spec positive (sswuTv3 Z u : Int) x1
  have sum := (bnModAdd_spec positive (sswuTv5 Z u : Int) 1).2
  have numerator := (bnModMul_spec positive
    (bnModAdd (sswuTv5 Z u) 1 CurveBackend.fieldModulus : Int) CurveBackend.curveB).2
  have cast1 : (x1 : Coordinate) =
      first (CurveBackend.curveA : Coordinate) CurveBackend.curveB Z u := by
    rw [product1, Int.cast_natCast, Int.cast_natCast, numerator, inverts, Int.cast_natCast, sum, first,
      sswuTv6_spec, Int.cast_natCast, (sswuTv5_spec Z u).2, Int.cast_one, Int.cast_natCast, div_eq_mul_inv]
  refine ⟨below1, below2, cast1, ?_⟩
  rw [product2, Int.cast_natCast, Int.cast_natCast, (sswuTv3_spec Z u).2, cast1, second]

theorem sswuPoint_spec :
    ∃ inverse x y, bnModInverse (sswuTv6 Z u) CurveBackend.fieldModulus = some inverse ∧
      sswuPoint Z u = some (x, y) ∧ x < CurveBackend.fieldModulus ∧
      y * y % CurveBackend.fieldModulus = curveValue x ∧ 0 < y ∧ y < CurveBackend.fieldModulus ∧
      y % 2 = u % 2 := by
  obtain ⟨inverse, found, below1, below2, cast1, cast2⟩ := candidates_spec suits u
  obtain ⟨x, below, square, abscissa, ordinate⟩ := selected_isSquare suits u below1 below2 cast1 cast2
  have nonzero : (curveValue x : Coordinate) ≠ 0 := by
    rw [(curveValue_spec x).2]
    exact suits.rootless x
  have remainder := suits.remainder
  obtain ⟨positive, squared⟩ := squareRoot_curve remainder square nonzero
  obtain ⟨signedPositive, signedBelow, sign, same⟩ :=
    selectSign (by omega) positive (squareRoot_spec (curveValue x)).1 u
  refine ⟨inverse, x, _, found, ?_, below, same.trans squared, signedPositive, signedBelow, sign⟩
  unfold sswuPoint
  dsimp only
  rw [found]
  dsimp only
  rw [abscissa, ordinate]

/-- For every constant that suits the curve and every number the map finds the inverse, selects a
point of the curve whose ordinate has the sign of the number, and returns this point. -/
theorem mapToCurveSswu_onCurve
    (accepts : ∀ x y, x < CurveBackend.fieldModulus → y < CurveBackend.fieldModulus →
      ((CurveBackend.setAffineCoordinates x y).isSome = true ↔
        y * y % CurveBackend.fieldModulus = curveValue x)) :
    ∃ inverse x y point, bnModInverse (sswuTv6 Z u) CurveBackend.fieldModulus = some inverse ∧
      sswuPoint Z u = some (x, y) ∧ x < CurveBackend.fieldModulus ∧
      y * y % CurveBackend.fieldModulus = curveValue x ∧ 0 < y ∧ y < CurveBackend.fieldModulus ∧
      y % 2 = u % 2 ∧ CurveBackend.setAffineCoordinates x y = some point ∧
      mapToCurveSswuWith Z u = .ok point ∧
      (Z = (CurveBackend.fieldModulus : Int) - 12 → mapToCurveSswu u = .ok point) := by
  obtain ⟨inverse, x, y, found, selected, below, onCurve, positive, reduced, sign⟩ := sswuPoint_spec suits u
  obtain ⟨point, created⟩ := Option.isSome_iff_exists.mp ((accepts x y below reduced).mpr onCurve)
  have mapped : mapToCurveSswuWith Z u = .ok point := by
    unfold mapToCurveSswuWith
    rw [selected]
    dsimp only
    rw [created]
  refine ⟨inverse, x, y, point, found, selected, below, onCurve, positive, reduced, sign, created, mapped, ?_⟩
  rintro rfl
  exact mapped

end Selected

end Map

section Instances

/-- This library knows the points of y² = x³ + x + 7 modulo 11. -/
abbrev elevenBackend : CurveBackend where
  evpSha256 _ := none
  evpSha384 _ := none
  Point := Nat × Nat
  order := 0
  octToPoint _ := none
  isOnCurve _ := true
  isAtInfinity _ := false
  pointToOct _ := none
  mul _ _ := none
  mulGenerator _ := none
  add _ _ := none
  fieldModulus := 11
  curveA := 1
  curveB := 7
  setAffineCoordinates x y :=
    if y * y % 11 = ((x * x % 11 + 1) % 11 * x % 11 + 7) % 11 then some (x, y) else none
  mulAdd _ _ _ := none

instance eleven_prime : Fact (Nat.Prime 11) := ⟨by decide⟩

theorem eleven_suits : @SuitsCurve elevenBackend eleven_prime (-1) := by
  refine @SuitsCurve.mk elevenBackend eleven_prime (-1) rfl ?_ ?_ ?_ ?_
  · show (1 : ZMod 11) ≠ 0
    decide
  · show ¬ IsSquare (-1 : ZMod 11)
    decide
  · show IsSquare (cubic ((1 : Nat) : ZMod 11) (7 : Nat) ((7 : Nat) / ((-1 : Int) * (1 : Nat))))
    have quotient : ((7 : Nat) / ((-1 : Int) * (1 : Nat)) : ZMod 11) = 4 := by
      rw [div_eq_iff (by decide)]
      decide
    rw [quotient]
    decide
  · show ∀ x : ZMod 11, cubic ((1 : Nat) : ZMod 11) (7 : Nat) x ≠ 0
    decide

theorem mapToCurveSswu_onCurve_eleven :
    ∃ x y point, @sswuPoint elevenBackend (-1) 2 = some (x, y) ∧
      y * y % 11 = @curveValue elevenBackend x ∧ y % 2 = 0 ∧
      @mapToCurveSswu elevenBackend 2 = .ok point := by
  obtain ⟨-, x, y, point, -, selected, -, onCurve, -, -, sign, -, -, mapped⟩ :=
    @mapToCurveSswu_onCurve elevenBackend eleven_prime (-1) eleven_suits 2 (by
      intro x y below reduced
      show (if _ then some (x, y) else none).isSome = true ↔ _
      rw [Option.isSome_ite]
      rfl)
  exact ⟨x, y, point, selected, onCurve, sign, mapped rfl⟩

end Instances
end PrivacyPass.Crypto
