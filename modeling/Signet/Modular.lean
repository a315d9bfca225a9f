/-!
# Arithmetic modulo a number

Powers and inverses, the two operations that signatures are made of.
-/

namespace Signet.Modular

/-- The power of a base modulo a number, by squaring. -/
def pow (modulus base exponent : Nat) : Nat :=
  if exponent = 0 then 1 % modulus
  else
    let square := pow modulus (base * base % modulus) (exponent / 2)
    if exponent % 2 = 1 then base * square % modulus else square
termination_by exponent

/-- Runs Euclid's algorithm on two remainders. With each remainder goes a number whose product with
the starting number is that remainder, up to multiples of the modulus. The answer is the last
remainder that is not zero, with its number. -/
def euclid (remainder next : Nat) (cofactor nextCofactor : Int) : Nat × Int :=
  if next = 0 then (remainder, cofactor)
  else euclid next (remainder % next) nextCofactor
    (cofactor - Int.ofNat (remainder / next) * nextCofactor)
termination_by next
decreasing_by exact Nat.mod_lt _ (Nat.pos_of_ne_zero ‹_›)

/-- The inverse of a number modulo another, if the two have no common divisor. -/
def inverse? (modulus number : Nat) : Option Nat :=
  match euclid modulus (number % modulus) 0 1 with
  | (1, cofactor) => some (cofactor.emod modulus).toNat
  | _ => none

end Signet.Modular
