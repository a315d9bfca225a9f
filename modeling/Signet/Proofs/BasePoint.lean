import Mathlib.GroupTheory.OrderOfElement
import Signet.Proofs.CurveGroup

/-!
# The order of the base point

The base point generates a group of order `order` (`Secp256k1.exists_generator`), since its multiple
by the number before that is its opposite. To compute this multiple, points are kept as fractions,
because divisions would make it slow. The formulas for fractions only hold where the two points are
not opposite; but where they are, the denominator becomes zero, and so do all later ones
(`Secp256k1.Fraction.run_ne_zero`). So it is enough to look at the last denominator
(`Secp256k1.Fraction.multiple_standsFor`).
-/

namespace Signet.Secp256k1

/-! ## Fractions -/

/-- The coordinates of a point, as numerators and a common denominator. -/
structure Fraction where
  x : Nat
  y : Nat
  z : Nat

namespace Fraction

/-- That a fraction has the coordinates of an element of the group. -/
inductive StandsFor (fraction : Fraction) : curve.Point → Prop
  | intro {x y : Coordinate} {isPoint : curve.Nonsingular x y}
    (nonzero : (fraction.z : Coordinate) ≠ 0) (first : (fraction.x : Coordinate) = x * fraction.z)
    (second : (fraction.y : Coordinate) = y * fraction.z) : StandsFor fraction (.some x y isPoint)

/-- The third point, mirrored, on a line through a point with the slope `rise / run`. The second
point on it has the first coordinate `other` above the same denominator. -/
def third (fraction : Fraction) (rise run other : Nat) : Fraction :=
  let cube := run * run * run % fieldSize
  let width := Point.minus (rise * rise * fraction.z) (run * run * (fraction.x + other))
  ⟨run * width % fieldSize,
    Point.minus (rise * Point.minus (run * run * fraction.x) width) (cube * fraction.y),
    cube * fraction.z % fieldSize⟩

def double (fraction : Fraction) : Fraction :=
  fraction.third (3 * fraction.x * fraction.x) (2 * fraction.y * fraction.z) fraction.x

/-- Adds a point that is known by its coordinates. -/
def add (fraction : Fraction) (x y : Nat) : Fraction :=
  fraction.third (Point.minus (y * fraction.z) fraction.y) (Point.minus (x * fraction.z) fraction.x)
    (x * fraction.z)

/-- A multiple, by at least one, of a point that is known by its coordinates. -/
def multiple (x y scalar : Nat) : Fraction :=
  if scalar ≤ 1 then ⟨x, y, 1⟩
  else
    let doubled := (multiple x y (scalar / 2)).double
    if scalar % 2 = 1 then doubled.add x y else doubled
termination_by scalar

variable {fraction : Fraction}

/-! ## Lines -/

theorem cast_third_z (rise run other : Nat) :
    ((fraction.third rise run other).z : Coordinate) = run * run * run * fraction.z := by
  unfold third
  dsimp only
  rw [ZMod.natCast_mod, Nat.cast_mul, ZMod.natCast_mod]
  push_cast
  rfl

theorem third_standsFor {x₁ y₁ x₂ y₂ : Coordinate} {isFirst : curve.Nonsingular x₁ y₁}
    {isSecond : curve.Nonsingular x₂ y₂}
    (apart : ¬(x₁ = x₂ ∧ y₁ = curve.negY x₂ y₂))
    (stands : fraction.StandsFor (.some x₁ y₁ isFirst)) {rise run other : Nat}
    (runs : (run : Coordinate) ≠ 0)
    (isSlope : (rise : Coordinate) = curve.slope x₁ x₂ y₁ y₂ * run)
    (isOther : (other : Coordinate) = x₂ * fraction.z) :
    (fraction.third rise run other).StandsFor
      (.some x₁ y₁ isFirst + .some x₂ y₂ isSecond) := by
  cases stands with
  | intro nonzero first second =>
    rw [WeierstrassCurve.Affine.Point.add_some apart]
    refine .intro ?_ ?_ ?_
    · rw [cast_third_z]
      exact mul_ne_zero (mul_ne_zero (mul_ne_zero runs runs) runs) nonzero
    · rw [cast_third_z]
      unfold third
      dsimp only
      rw [ZMod.natCast_mod, Nat.cast_mul, Point.cast_minus]
      push_cast
      rw [isSlope, isOther, first, WeierstrassCurve.Affine.addX, curve]
      ring
    · rw [cast_third_z]
      unfold third
      dsimp only
      rw [Point.cast_minus, Nat.cast_mul, Point.cast_minus, Point.cast_minus]
      push_cast
      rw [ZMod.natCast_mod]
      push_cast
      rw [isSlope, isOther, first, second, WeierstrassCurve.Affine.addY, negY_eq,
        WeierstrassCurve.Affine.negAddY, WeierstrassCurve.Affine.addX, curve]
      ring

/-- A denominator is zero if the one before it is, and where a line is vertical. -/
theorem run_ne_zero {rise run other : Nat}
    (nonzero : ((fraction.third rise run other).z : Coordinate) ≠ 0) :
    (run : Coordinate) ≠ 0 ∧ (fraction.z : Coordinate) ≠ 0 := by
  rw [cast_third_z] at nonzero
  exact ⟨right_ne_zero_of_mul (left_ne_zero_of_mul nonzero), right_ne_zero_of_mul nonzero⟩

/-! ## Multiples -/

theorem double_standsFor {element : curve.Point} (stands : fraction.StandsFor element)
    (nonzero : (fraction.double.z : Coordinate) ≠ 0) :
    fraction.double.StandsFor (element + element) := by
  obtain ⟨runs, -⟩ := run_ne_zero nonzero
  have ofElement := stands
  cases ofElement with
  | @intro x y isPoint zNonzero first second =>
    have run : ((2 * fraction.y * fraction.z : Nat) : Coordinate) =
        (y - curve.negY x y) * (fraction.z * fraction.z) := by
      rw [negY_eq]
      push_cast
      rw [second]
      ring
    rw [run] at runs
    have slanted : y ≠ curve.negY x y := sub_ne_zero.mp (left_ne_zero_of_mul runs)
    refine third_standsFor (fun both => slanted both.2) stands (run ▸ runs) ?_ first
    rw [run, WeierstrassCurve.Affine.slope_of_Y_ne rfl slanted, ← mul_assoc,
      div_mul_cancel₀ _ (sub_ne_zero.mpr slanted)]
    push_cast
    rw [first, curve]
    ring

theorem add_standsFor {element other : curve.Point} {x y : Nat}
    (isOther : Point.ofGroup other = .affine x y) (stands : fraction.StandsFor element)
    (nonzero : ((fraction.add x y).z : Coordinate) ≠ 0) :
    (fraction.add x y).StandsFor (element + other) := by
  obtain ⟨runs, -⟩ := run_ne_zero nonzero
  have ofElement := stands
  cases ofElement with
  | @intro x₁ y₁ isPoint zNonzero first second =>
    cases other with
    | zero => exact nomatch isOther
    | some x₂ y₂ isOtherPoint =>
      cases isOther
      have run : (Point.minus (x₂.val * fraction.z) fraction.x : Coordinate) =
          (x₁ - x₂) * -fraction.z := by
        rw [Point.cast_minus, Nat.cast_mul, ZMod.natCast_zmod_val, first]
        ring
      rw [run] at runs
      have apart : x₁ ≠ x₂ := sub_ne_zero.mp (left_ne_zero_of_mul runs)
      refine third_standsFor (fun both => apart both.1) stands (run ▸ runs) ?_ ?_
      · rw [run, WeierstrassCurve.Affine.slope_of_X_ne apart, ← mul_assoc,
          div_mul_cancel₀ _ (sub_ne_zero.mpr apart), Point.cast_minus, Nat.cast_mul,
          ZMod.natCast_zmod_val, second]
        ring
      · rw [Nat.cast_mul, ZMod.natCast_zmod_val]

/-- What is computed stands for the multiple, unless the denominator has become zero. -/
theorem multiple_standsFor {element : curve.Point} {x y : Nat}
    (isElement : Point.ofGroup element = .affine x y) {scalar : Nat} (positive : 1 ≤ scalar)
    (nonzero : ((multiple x y scalar).z : Coordinate) ≠ 0) :
    (multiple x y scalar).StandsFor (scalar • element) := by
  induction scalar using Nat.strongRecOn with
  | ind scalar ih =>
    rw [multiple] at nonzero ⊢
    by_cases isOne : scalar ≤ 1
    · rw [if_pos isOne, Nat.le_antisymm isOne positive, one_nsmul]
      cases element with
      | zero => exact nomatch isElement
      | some x' y' isPoint =>
        cases isElement
        refine .intro ?_ ?_ ?_
        · rw [Nat.cast_one]
          exact one_ne_zero
        · rw [ZMod.natCast_zmod_val, Nat.cast_one, mul_one]
        · rw [ZMod.natCast_zmod_val, Nat.cast_one, mul_one]
    · rw [if_neg isOne] at nonzero ⊢
      dsimp only at nonzero ⊢
      have half := ih (scalar / 2) (by omega) (by omega)
      by_cases isOdd : scalar % 2 = 1
      · have halves : scalar = scalar / 2 + scalar / 2 + 1 := by omega
        rw [if_pos isOdd] at nonzero ⊢
        have doubledNonzero := (run_ne_zero nonzero).2
        have doubled := double_standsFor (half (run_ne_zero doubledNonzero).2) doubledNonzero
        rw [← add_nsmul] at doubled
        have added := add_standsFor isElement doubled nonzero
        rw [← succ_nsmul, ← halves] at added
        exact added
      · have halves : scalar = scalar / 2 + scalar / 2 := by omega
        rw [if_neg isOdd] at nonzero ⊢
        have doubled := double_standsFor (half (run_ne_zero nonzero).2) nonzero
        rw [← add_nsmul, ← halves] at doubled
        exact doubled

/-! ## Opposite points -/

/-- That a fraction has the coordinates of a point, but for the sign of the second. -/
structure IsOpposite (fraction : Fraction) (x y : Nat) : Prop where
  nonzero : fraction.z % fieldSize ≠ 0
  first : fraction.x % fieldSize = x * fraction.z % fieldSize
  second : (fraction.y + y * fraction.z) % fieldSize = 0

instance (fraction : Fraction) (x y : Nat) : Decidable (fraction.IsOpposite x y) :=
  decidable_of_iff
    (fraction.z % fieldSize ≠ 0 ∧ fraction.x % fieldSize = x * fraction.z % fieldSize ∧
      (fraction.y + y * fraction.z) % fieldSize = 0)
    ⟨fun ⟨nonzero, first, second⟩ => ⟨nonzero, first, second⟩,
      fun ⟨nonzero, first, second⟩ => ⟨nonzero, first, second⟩⟩

theorem IsOpposite.cast_ne_zero {x y : Nat} (opposite : fraction.IsOpposite x y) :
    (fraction.z : Coordinate) ≠ 0 := by
  rw [ne_eq, ZMod.natCast_eq_zero_iff, Nat.dvd_iff_mod_eq_zero]
  exact opposite.nonzero

/-- An element that has the coordinates of another, but for the sign of the second, is opposite to
it. -/
theorem eq_neg_of_isOpposite {element other : curve.Point} {x y : Nat}
    (stands : fraction.StandsFor element) (isOther : Point.ofGroup other = .affine x y)
    (opposite : fraction.IsOpposite x y) :
    element = -other := by
  have zNonzero := opposite.cast_ne_zero
  cases stands with
  | @intro x₁ y₁ isPoint _ first second =>
    cases other with
    | zero => exact nomatch isOther
    | some x₂ y₂ isOtherPoint =>
      cases isOther
      have sameFirst : x₁ = x₂ := by
        have same := cast_eq_iff_mod.mpr opposite.first
        rw [Nat.cast_mul, ZMod.natCast_zmod_val, first] at same
        exact mul_right_cancel₀ zNonzero same
      have oppositeSecond : y₁ = -y₂ := by
        have cancels := opposite.second
        rw [← Nat.dvd_iff_mod_eq_zero, ← ZMod.natCast_eq_zero_iff, Nat.cast_add, Nat.cast_mul,
          ZMod.natCast_zmod_val, second, ← add_mul] at cancels
        exact eq_neg_of_add_eq_zero_left ((mul_eq_zero_iff_right zNonzero).mp cancels)
      subst sameFirst oppositeSecond
      rw [WeierstrassCurve.Affine.Point.neg_some]
      simp only [negY_eq]

/-- If its multiple by the number before is opposite to it, a number takes an element to zero. -/
theorem nsmul_eq_zero_of_isOpposite {element : curve.Point} {x y scalar : Nat}
    (isElement : Point.ofGroup element = .affine x y) (large : 2 ≤ scalar)
    (opposite : (multiple x y (scalar - 1)).IsOpposite x y) : scalar • element = 0 := by
  have stands := multiple_standsFor isElement (Nat.le_sub_of_add_le large) opposite.cast_ne_zero
  have isNegated := eq_neg_of_isOpposite stands isElement opposite
  have oneMore : scalar = scalar - 1 + 1 := by omega
  rw [oneMore, succ_nsmul, isNegated, neg_add_cancel]

end Fraction

/-- The base point generates a group of prime order. -/
theorem exists_generator :
    ∃ generator : curve.Point, Point.ofGroup generator = Point.base ∧
      addOrderOf generator = order := by
  obtain ⟨generator, isBase⟩ :=
    Point.isOnCurve_iff.mp (show Point.base.IsOnCurve by decide +kernel)
  refine ⟨generator, isBase, addOrderOf_eq_prime ?_ fun isZero => ?_⟩
  · exact Fraction.nsmul_eq_zero_of_isOpposite isBase (by decide) (by decide +kernel)
  · rw [isZero] at isBase
    exact nomatch isBase

end Signet.Secp256k1
