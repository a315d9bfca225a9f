import Signet.Modular

/-!
# The curve secp256k1

The points `(x, y)` with `y² = x³ + 7` over the field of `fieldSize` elements, and a point at
infinity. `Point.add` is the chord and tangent rule on affine coordinates, so equal points are equal
values.
-/

namespace Signet.Secp256k1

/-- The number of elements of the field of coordinates, `2^256 - 2^32 - 977`. -/
def fieldSize : Nat :=
  0xfffffffffffffffffffffffffffffffffffffffffffffffffffffffefffffc2f

/-- The number of multiples of the base point. -/
def order : Nat :=
  0xfffffffffffffffffffffffffffffffebaaedce6af48a03bbfd25e8cd0364141

inductive Point
  | infinity
  | affine (x y : Nat)
  deriving DecidableEq, Repr

namespace Point

def base : Point :=
  affine 0x79be667ef9dcbbac55a06295ce870b07029bfcdb2dce28d959f2815b16f81798
    0x483ada7726a3c4655da4fbfc0e1108a8fd17b448a68554199c47d08ffb10d4b8

/-- Whether a value is a point: its coordinates are field elements and satisfy the equation. -/
def IsOnCurve : Point → Prop
  | infinity => True
  | affine x y =>
    x < fieldSize ∧ y < fieldSize ∧ y * y % fieldSize = (x * x * x + 7) % fieldSize

instance : DecidablePred IsOnCurve := fun point =>
  match point with
  | infinity => isTrue trivial
  | affine _ _ => inferInstanceAs (Decidable (_ ∧ _ ∧ _))

/-- The difference of two field elements. -/
def minus (left right : Nat) : Nat :=
  (left + (fieldSize - right % fieldSize)) % fieldSize

/-- The third point on a line of known slope through two points with the given first coordinates,
mirrored at the axis. The second coordinate belongs to the first point. -/
def third (slope x₁ y₁ x₂ : Nat) : Point :=
  let x := minus (slope * slope) (x₁ + x₂)
  affine x (minus (slope * minus x₁ x) y₁)

/-- The quotient of two field elements; the divisor is not zero where it is used. -/
def divide (numerator divisor : Nat) : Nat :=
  numerator * (Modular.inverse? fieldSize divisor).getD 0 % fieldSize

def add : Point → Point → Point
  | infinity, point => point
  | point, infinity => point
  | affine x₁ y₁, affine x₂ y₂ =>
    if x₁ = x₂ then
      if (y₁ + y₂) % fieldSize = 0 then infinity
      else third (divide (3 * x₁ * x₁) (2 * y₁)) x₁ y₁ x₂
    else third (divide (minus y₂ y₁) (minus x₂ x₁)) x₁ y₁ x₂

/-- A multiple of a point, by doubling. -/
def multiple (scalar : Nat) (point : Point) : Point :=
  if scalar = 0 then infinity
  else
    let doubled := multiple (scalar / 2) (add point point)
    if scalar % 2 = 1 then add point doubled else doubled
termination_by scalar

end Point

end Signet.Secp256k1
