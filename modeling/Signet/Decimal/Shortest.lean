/-!
# Shortest decimals

A binary fraction is written with the fewest significant digits that still tell it from its
neighbours, and among those with the digits nearest to it. All comparisons are between natural
numbers.
-/

namespace Signet.Decimal

/-- A finite binary fraction that is not zero, `mantissa * 2 ^ exponent`. The fraction below it is
half as far away as the one above if `isLowest`: then it is the first of its power of two. -/
structure Binary where
  mantissa : Nat
  exponent : Int
  isLowest : Bool

/-- A decimal fraction, `digits * 10 ^ exponent`. -/
structure Digits where
  digits : Nat
  exponent : Int
  deriving DecidableEq, Repr

namespace Binary

/-- Compares `digits * 10 ^ exponent` with a quarter of `quarters` units of the last place of a
fraction. -/
def compareDigits (fraction : Binary) (digits : Nat) (exponent : Int) (quarters : Nat) : Ordering :=
  let binary := fraction.exponent - 2
  compare (digits * Nat.pow 10 exponent.toNat * Nat.pow 2 (-binary).toNat)
    (quarters * Nat.pow 2 binary.toNat * Nat.pow 10 (-exponent).toNat)

/-- Whether reading `digits * 10 ^ exponent` gives the fraction back. The midpoints between
neighbours go to the fraction with the even mantissa. -/
def readsBack (fraction : Binary) (digits : Nat) (exponent : Int) : Bool :=
  let isEven := fraction.mantissa % 2 == 0
  let low := 4 * fraction.mantissa - (if fraction.isLowest then 1 else 2)
  let high := 4 * fraction.mantissa + 2
  let aboveLow :=
    match fraction.compareDigits digits exponent low with
    | .lt => false
    | .eq => isEven
    | .gt => true
  let belowHigh :=
    match fraction.compareDigits digits exponent high with
    | .lt => true
    | .eq => isEven
    | .gt => false
  aboveLow && belowHigh

/-- The greatest `digits` with `digits * 10 ^ exponent` not above the fraction. -/
def floorAt (fraction : Binary) (exponent : Int) : Nat :=
  (fraction.mantissa * Nat.pow 2 fraction.exponent.toNat * Nat.pow 10 (-exponent).toNat) /
    (Nat.pow 2 (-fraction.exponent).toNat * Nat.pow 10 exponent.toNat)

/-- The digits that read back on the grid of a power of ten, the nearer ones if there are two. -/
def onGrid? (fraction : Binary) (exponent : Int) : Option Digits :=
  let below := fraction.floorAt exponent
  let above := below + 1
  match fraction.readsBack below exponent, fraction.readsBack above exponent with
  | false, false => none
  | true, false => some ⟨below, exponent⟩
  | false, true => some ⟨above, exponent⟩
  | true, true =>
    match fraction.compareDigits (below + above) exponent (8 * fraction.mantissa) with
    | .lt => some ⟨above, exponent⟩
    | .gt => some ⟨below, exponent⟩
    | .eq => some ⟨if below % 2 = 0 then below else above, exponent⟩

/-- The exponent of the power of ten at or below the fraction, looked for downwards from a start
that is above it. -/
def powerOfTen (fraction : Binary) : (tries : Nat) → (start : Int) → Int
  | 0, start => start
  | tries + 1, start =>
    if fraction.floorAt start = 0 then fraction.powerOfTen tries (start - 1) else start

/-- Tries the grids from a power of ten on, each ten times finer than the last. -/
def firstGrid (fraction : Binary) : (tries : Nat) → (exponent : Int) → Digits
  | 0, exponent => ⟨fraction.floorAt exponent, exponent⟩
  | tries + 1, exponent =>
    (fraction.onGrid? exponent).getD (fraction.firstGrid tries (exponent - 1))

/-- The shortest digits that read back. Seventeen always suffice. -/
def shortest (fraction : Binary) : Digits :=
  fraction.firstGrid 17 (fraction.powerOfTen 700 310)

end Binary

end Signet.Decimal
