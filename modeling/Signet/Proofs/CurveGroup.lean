import Mathlib.AlgebraicGeometry.EllipticCurve.Affine.Point
import Mathlib.Tactic.LinearCombination
import Mathlib.Tactic.NormNum.Prime
import Signet.Proofs.Primality
import Signet.Secp256k1.Curve

/-!
# The group of secp256k1

The chord and tangent rule on affine coordinates is the addition of a group: the values that are
points of the curve are those of the elements of Mathlib's group of the curve
(`Secp256k1.Point.isOnCurve_iff`), and `Point.add` and `Point.multiple` do there what addition and
multiples do in the group (`Secp256k1.Point.ofGroup_add`, `Secp256k1.Point.ofGroup_nsmul`). For this
the coordinates have to be those of a field, which they are since `fieldSize` is a prime
(`Secp256k1.prime_fieldSize`). So is `order` (`Secp256k1.prime_order`).
-/

namespace Signet.Secp256k1

/-! ## Primes -/

/-- The small primes that the certificates rest on. -/
def smallPrimes : List Nat :=
  [2, 3, 5, 7, 11, 17, 19, 29, 31, 41, 53, 59, 97, 109, 113, 149, 293, 461, 631, 797, 971, 1373,
    1627, 1871, 2011, 2621, 2657, 2731, 4051, 4423, 5323, 7723, 9349, 13441, 16699, 20113, 24809,
    28181, 41201, 85831, 96557]

theorem prime_of_mem_smallPrimes : ∀ number ∈ smallPrimes, number.Prime := by
  norm_num [smallPrimes]

/-- Why the number of elements of the field is a prime. -/
def fieldCertificates : List Certificate :=
  [⟨13331831, 13, [(2, 1), (5, 1), (971, 1), (1373, 1)]⟩,
    ⟨173378833005251801, 6, [(2, 3), (5, 2), (2621, 1), (24809, 1), (13331831, 1)]⟩,
    ⟨22149492674086928081353, 5, [(2, 3), (3, 1), (5323, 1), (173378833005251801, 1)]⟩,
    ⟨132896956044521568488119, 6, [(2, 1), (3, 1), (22149492674086928081353, 1)]⟩,
    ⟨1206781, 10, [(2, 2), (3, 1), (5, 1), (20113, 1)]⟩,
    ⟨7240687, 3, [(2, 1), (3, 1), (1206781, 1)]⟩,
    ⟨107590001, 3, [(2, 4), (5, 4), (7, 1), (29, 1), (53, 1)]⟩,
    ⟨255515944373312847190720520512484175977, 3,
      [(2, 3), (7, 2), (11, 1), (1627, 1), (2657, 1), (4423, 1), (41201, 1), (96557, 1),
        (7240687, 1), (107590001, 1)]⟩,
    ⟨205115282021455665897114700593932402728804164701536103180137503955397371, 10,
      [(2, 1), (3, 1), (5, 1), (29, 2), (31, 1), (7723, 1), (132896956044521568488119, 1),
        (255515944373312847190720520512484175977, 1)]⟩,
    ⟨fieldSize, 3, [(2, 1), (3, 1), (7, 1), (13441, 1),
      (205115282021455665897114700593932402728804164701536103180137503955397371, 1)]⟩]

/-- Why the order of the base point is a prime. -/
def orderCertificates : List Certificate :=
  [⟨4681609, 23, [(2, 3), (3, 1), (97, 1), (2011, 1)]⟩,
    ⟨107361793816595537, 3, [(2, 4), (16699, 1), (85831, 1), (4681609, 1)]⟩,
    ⟨120233, 3, [(2, 3), (7, 1), (19, 1), (113, 1)]⟩,
    ⟨44706919, 6, [(2, 1), (3, 1), (797, 1), (9349, 1)]⟩,
    ⟨174723607534414371449, 3,
      [(2, 3), (17, 1), (59, 1), (4051, 1), (120233, 1), (44706919, 1)]⟩,
    ⟨305873, 3, [(2, 4), (7, 1), (2731, 1)]⟩,
    ⟨545358713, 5, [(2, 3), (41, 1), (59, 1), (28181, 1)]⟩,
    ⟨1627771, 3, [(2, 1), (3, 1), (5, 1), (29, 1), (1871, 1)]⟩,
    ⟨297159362677, 2, [(2, 2), (3, 2), (11, 1), (461, 1), (1627771, 1)]⟩,
    ⟨29047611873442575647497758179, 2,
      [(2, 1), (293, 1), (305873, 1), (545358713, 1), (297159362677, 1)]⟩,
    ⟨341948486974166000522343609283189, 2,
      [(2, 2), (3, 3), (109, 1), (29047611873442575647497758179, 1)]⟩,
    ⟨order, 7,
      [(2, 6), (3, 1), (149, 1), (631, 1), (107361793816595537, 1), (174723607534414371449, 1),
        (341948486974166000522343609283189, 1)]⟩]

theorem isChain_fieldCertificates : Certificate.IsChain smallPrimes fieldCertificates := by
  decide +kernel

theorem isChain_orderCertificates : Certificate.IsChain smallPrimes orderCertificates := by
  decide +kernel

theorem prime_fieldSize : fieldSize.Prime :=
  isChain_fieldCertificates.prime prime_of_mem_smallPrimes fieldSize (by decide +kernel)

theorem prime_order : order.Prime :=
  isChain_orderCertificates.prime prime_of_mem_smallPrimes order (by decide +kernel)

instance : Fact fieldSize.Prime :=
  ⟨prime_fieldSize⟩

instance : Fact order.Prime :=
  ⟨prime_order⟩

/-! ## Coordinates -/

/-- The field of coordinates. -/
abbrev Coordinate := ZMod fieldSize

theorem cast_eq_iff_mod {left right : Nat} :
    (left : Coordinate) = right ↔ left % fieldSize = right % fieldSize :=
  ZMod.natCast_eq_natCast_iff' left right fieldSize

namespace Point

theorem cast_minus (left right : Nat) : (minus left right : Coordinate) = left - right := by
  have le : right % fieldSize ≤ fieldSize := (Nat.mod_lt _ prime_fieldSize.pos).le
  rw [minus, ZMod.natCast_mod, Nat.cast_add, Nat.cast_sub le, ZMod.natCast_self, ZMod.natCast_mod]
  ring

theorem minus_eq_val {left right : Nat} {difference : Coordinate}
    (isDifference : (left : Coordinate) - right = difference) :
    minus left right = difference.val := by
  have below : minus left right < fieldSize := Nat.mod_lt _ prime_fieldSize.pos
  rw [← isDifference, ← cast_minus, ZMod.val_natCast_of_lt below]

theorem cast_divide {left right : Nat} (nonzero : (right : Coordinate) ≠ 0) :
    (divide left right : Coordinate) = left / right := by
  obtain ⟨inverse, found, isInverse⟩ := Modular.exists_inverse?_of_prime nonzero
  rw [divide, found, Option.getD_some, ZMod.natCast_mod, Nat.cast_mul, isInverse, div_eq_mul_inv]

end Point

/-! ## Points -/

/-- The curve `y² = x³ + 7`. -/
def curve : WeierstrassCurve.Affine Coordinate :=
  ⟨0, 0, 0, 0, 7⟩

theorem equation_iff {x y : Coordinate} : curve.Equation x y ↔ y * y = x * x * x + 7 := by
  rw [WeierstrassCurve.Affine.equation_iff, curve]
  refine ⟨fun equation => ?_, fun equation => ?_⟩
  · linear_combination equation
  · linear_combination equation

theorem discriminant_ne_zero : curve.Δ ≠ 0 := by
  have discriminant : curve.Δ = ((fieldSize - 21168 : Nat) : Coordinate) := by
    rw [Nat.cast_sub (by decide), ZMod.natCast_self]
    simp only [WeierstrassCurve.Δ, WeierstrassCurve.b₂, WeierstrassCurve.b₄,
      WeierstrassCurve.b₆, WeierstrassCurve.b₈, curve]
    norm_num
  rw [discriminant, ne_eq, ZMod.natCast_eq_zero_iff]
  decide +kernel

/-- The curve has a tangent at each of its points. -/
theorem nonsingular_iff {x y : Coordinate} : curve.Nonsingular x y ↔ y * y = x * x * x + 7 := by
  rw [← WeierstrassCurve.Affine.equation_iff_nonsingular_of_Δ_ne_zero discriminant_ne_zero,
    equation_iff]

theorem negY_eq (x y : Coordinate) : curve.negY x y = -y := by
  rw [WeierstrassCurve.Affine.negY, curve]
  ring

namespace Point

/-- An element of the group as a value. -/
def ofGroup : curve.Point → Point
  | .zero => infinity
  | .some x y _ => affine x.val y.val

theorem ofGroup_injective : Function.Injective ofGroup := by
  intro element other same
  cases element with
  | zero =>
    cases other with
    | zero => rfl
    | some x y isPoint => exact nomatch same
  | some x y isPoint =>
    cases other with
    | zero => exact nomatch same
    | some otherX otherY isOther =>
      obtain ⟨sameX, sameY⟩ := affine.inj same
      obtain rfl := ZMod.val_injective _ sameX
      obtain rfl := ZMod.val_injective _ sameY
      rfl

/-- The values that are points are those of the elements of the group. -/
theorem isOnCurve_iff {point : Point} :
    point.IsOnCurve ↔ ∃ element, ofGroup element = point := by
  refine ⟨fun isOnCurve => ?_, fun isElement => ?_⟩
  · cases point with
    | infinity => exact ⟨.zero, rfl⟩
    | affine x y =>
      obtain ⟨xBelow, yBelow, equation⟩ := isOnCurve
      have isPoint : curve.Nonsingular (x : Coordinate) (y : Coordinate) := by
        rw [nonsingular_iff]
        exact_mod_cast cast_eq_iff_mod.mpr equation
      refine ⟨.some _ _ isPoint, ?_⟩
      rw [ofGroup, ZMod.val_natCast_of_lt xBelow, ZMod.val_natCast_of_lt yBelow]
  · obtain ⟨element, rfl⟩ := isElement
    cases element with
    | zero => trivial
    | some x y isPoint =>
      refine ⟨x.val_lt, y.val_lt, cast_eq_iff_mod.mp ?_⟩
      push_cast
      rw [ZMod.natCast_zmod_val, ZMod.natCast_zmod_val]
      exact nonsingular_iff.mp isPoint

/-! ## Addition -/

variable {x₁ y₁ x₂ y₂ : Coordinate}

/-- The third point on a line, mirrored, has the coordinates that the formulas for addition give. -/
theorem third_eq {slope : Nat} {line : Coordinate} (isSlope : (slope : Coordinate) = line) :
    third slope x₁.val y₁.val x₂.val =
      affine (curve.addX x₁ x₂ line).val (curve.addY x₁ x₂ y₁ line).val := by
  have first : minus (slope * slope) (x₁.val + x₂.val) = (curve.addX x₁ x₂ line).val := by
    refine minus_eq_val ?_
    push_cast
    rw [isSlope, ZMod.natCast_zmod_val, ZMod.natCast_zmod_val, WeierstrassCurve.Affine.addX, curve]
    ring
  have second : minus (slope * minus x₁.val (curve.addX x₁ x₂ line).val) y₁.val =
      (curve.addY x₁ x₂ y₁ line).val := by
    refine minus_eq_val ?_
    push_cast
    rw [cast_minus, isSlope, ZMod.natCast_zmod_val, ZMod.natCast_zmod_val, ZMod.natCast_zmod_val,
      WeierstrassCurve.Affine.addY, negY_eq, WeierstrassCurve.Affine.negAddY]
    ring
  unfold third
  dsimp only
  rw [first, second]

theorem cast_chord (apart : x₁ ≠ x₂) :
    (divide (minus y₂.val y₁.val) (minus x₂.val x₁.val) : Coordinate) =
      curve.slope x₁ x₂ y₁ y₂ := by
  have rise : (minus y₂.val y₁.val : Coordinate) = -(y₁ - y₂) := by
    rw [cast_minus, ZMod.natCast_zmod_val, ZMod.natCast_zmod_val, neg_sub]
  have run : (minus x₂.val x₁.val : Coordinate) = -(x₁ - x₂) := by
    rw [cast_minus, ZMod.natCast_zmod_val, ZMod.natCast_zmod_val, neg_sub]
  have runs : (minus x₂.val x₁.val : Coordinate) ≠ 0 :=
    run ▸ neg_ne_zero.mpr (sub_ne_zero.mpr apart)
  rw [cast_divide runs, rise, run, neg_div_neg_eq, WeierstrassCurve.Affine.slope_of_X_ne apart]

theorem cast_tangent (slanted : y₁ ≠ curve.negY x₁ y₁) :
    (divide (3 * x₁.val * x₁.val) (2 * y₁.val) : Coordinate) =
      curve.slope x₁ x₁ y₁ y₁ := by
  have run : ((2 * y₁.val : Nat) : Coordinate) = y₁ - curve.negY x₁ y₁ := by
    rw [negY_eq, Nat.cast_mul, ZMod.natCast_zmod_val]
    ring
  rw [cast_divide (run ▸ sub_ne_zero.mpr slanted), run,
    WeierstrassCurve.Affine.slope_of_Y_ne rfl slanted]
  push_cast
  rw [ZMod.natCast_zmod_val, curve]
  ring

/-- The chord and tangent rule is the addition of the group. -/
theorem ofGroup_add (left right : curve.Point) :
    ofGroup (left + right) = (ofGroup left).add (ofGroup right) := by
  cases left with
  | zero =>
    rw [← WeierstrassCurve.Affine.Point.zero_def, zero_add]
    rfl
  | some x₁ y₁ isLeft =>
    cases right with
    | zero =>
      rw [← WeierstrassCurve.Affine.Point.zero_def, add_zero]
      rfl
    | some x₂ y₂ isRight =>
      have level : x₁.val = x₂.val ↔ x₁ = x₂ := (ZMod.val_injective fieldSize).eq_iff
      have opposite : (y₁.val + y₂.val) % fieldSize = 0 ↔ y₁ = curve.negY x₂ y₂ := by
        rw [← Nat.dvd_iff_mod_eq_zero, ← ZMod.natCast_eq_zero_iff, Nat.cast_add,
          ZMod.natCast_zmod_val, ZMod.natCast_zmod_val, negY_eq, eq_neg_iff_add_eq_zero]
      unfold ofGroup add
      dsimp only
      by_cases isLevel : x₁ = x₂
      · rw [if_pos (level.mpr isLevel)]
        by_cases isOpposite : y₁ = curve.negY x₂ y₂
        · rw [if_pos (opposite.mpr isOpposite),
            WeierstrassCurve.Affine.Point.add_of_Y_eq isLevel isOpposite]
        · have same : y₁ = y₂ :=
            WeierstrassCurve.Affine.Y_eq_of_Y_ne isLeft.1 isRight.1 isLevel isOpposite
          subst isLevel same
          rw [if_neg (mt opposite.mp isOpposite), third_eq (cast_tangent isOpposite),
            WeierstrassCurve.Affine.Point.add_some fun both => isOpposite both.2]
      · rw [if_neg (mt level.mp isLevel), third_eq (cast_chord isLevel),
          WeierstrassCurve.Affine.Point.add_of_X_ne isLevel]

/-- Doubling comes to the multiple of the group. -/
theorem ofGroup_nsmul (scalar : Nat) (element : curve.Point) :
    ofGroup (scalar • element) = multiple scalar (ofGroup element) := by
  induction scalar using Nat.strongRecOn generalizing element with
  | ind scalar ih =>
    unfold multiple
    by_cases isZero : scalar = 0
    · rw [if_pos isZero, isZero, zero_nsmul]
      rfl
    · have doubled := ih (scalar / 2) (by omega) (element + element)
      rw [ofGroup_add, ← two_nsmul, ← mul_nsmul'] at doubled
      rw [if_neg isZero]
      dsimp only
      rw [← doubled]
      by_cases isOdd : scalar % 2 = 1
      · have halves : scalar = scalar / 2 * 2 + 1 := by omega
        rw [if_pos isOdd, ← ofGroup_add, ← succ_nsmul', ← halves]
      · have halves : scalar = scalar / 2 * 2 := by omega
        rw [if_neg isOdd, ← halves]

/-- Opposite elements differ in their second coordinates only. -/
theorem ofGroup_neg {element : curve.Point} {x y : Nat} (isAffine : ofGroup element = affine x y) :
    ∃ mirrored, ofGroup (-element) = affine x mirrored := by
  cases element with
  | zero => exact nomatch isAffine
  | some x' y' isPoint =>
    cases isAffine
    exact ⟨_, rfl⟩

end Point

end Signet.Secp256k1
