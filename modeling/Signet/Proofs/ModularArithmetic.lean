import Mathlib.Algebra.Field.ZMod
import Mathlib.Data.Int.ModEq
import Mathlib.Data.Nat.ModEq
import Mathlib.Tactic.Ring
import Signet.Modular

/-!
# Powers and inverses

The algorithms for powers and for inverses do what they should: squaring comes to the power
(`Modular.pow_eq`), and the cofactor that Euclid's algorithm ends with, when it ends with one, is an
inverse (`Modular.mul_of_inverse?`). What carries the latter is that every remainder is the product
of its cofactor with the number, up to multiples of the modulus (`Modular.Follows`). Modulo a prime
every number but zero has an inverse (`Modular.exists_inverse?_of_prime`).
-/

namespace Signet.Modular

/-! ## Powers -/

theorem pow_eq (modulus base exponent : Nat) :
    pow modulus base exponent = base ^ exponent % modulus := by
  fun_induction pow modulus base exponent with
  | case1 base => rfl
  | case2 base exponent notZero square isOdd ih =>
    have halves : exponent = 2 * (exponent / 2) + 1 := by omega
    calc base * square % modulus
      _ = base * ((base * base % modulus) ^ (exponent / 2) % modulus) % modulus := by
          rw [← ih]
      _ = base * (base * base) ^ (exponent / 2) % modulus := by
          rw [← Nat.pow_mod, Nat.mul_mod_mod]
      _ = base ^ (2 * (exponent / 2) + 1) % modulus := by
          rw [← Nat.pow_two, ← Nat.pow_mul, Nat.pow_succ']
      _ = base ^ exponent % modulus := by rw [← halves]
  | case3 base exponent notZero square isEven ih =>
    have halves : exponent = 2 * (exponent / 2) := by omega
    calc square = (base * base % modulus) ^ (exponent / 2) % modulus := ih
      _ = base ^ (2 * (exponent / 2)) % modulus := by
          rw [← Nat.pow_mod, ← Nat.pow_two, ← Nat.pow_mul]
      _ = base ^ exponent % modulus := by rw [← halves]

/-! ## Inverses -/

/-- That a remainder is the product of its cofactor with a number, up to multiples of the
modulus. -/
def Follows (modulus number remainder : Nat) (cofactor : Int) : Prop :=
  (number : Int) * cofactor ≡ remainder [ZMOD modulus]

/-- A step of Euclid's algorithm keeps what is known of the remainders. -/
theorem Follows.step {modulus number remainder next : Nat} {cofactor nextCofactor : Int}
    (follows : Follows modulus number remainder cofactor)
    (nextFollows : Follows modulus number next nextCofactor) :
    Follows modulus number (remainder % next)
      (cofactor - Int.ofNat (remainder / next) * nextCofactor) := by
  have divided : ((remainder % next : Nat) : Int) =
      remainder - (remainder / next : Nat) * next := by
    have whole := congrArg (Nat.cast : Nat → Int) (Nat.div_add_mod remainder next)
    rw [Nat.cast_add, Nat.cast_mul] at whole
    rw [← whole]
    ring
  unfold Follows
  rw [divided]
  have product : (number : Int) * (cofactor - Int.ofNat (remainder / next) * nextCofactor) =
      number * cofactor - (remainder / next : Nat) * (number * nextCofactor) := by
    rw [Int.ofNat_eq_natCast]
    ring
  rw [product]
  exact follows.sub (nextFollows.mul_left _)

theorem Follows.euclid {modulus number remainder next : Nat} {cofactor nextCofactor : Int}
    (follows : Follows modulus number remainder cofactor)
    (nextFollows : Follows modulus number next nextCofactor) :
    Follows modulus number (euclid remainder next cofactor nextCofactor).1
      (euclid remainder next cofactor nextCofactor).2 := by
  fun_induction Modular.euclid remainder next cofactor nextCofactor with
  | case1 remainder cofactor nextCofactor => exact follows
  | case2 remainder next cofactor nextCofactor notZero ih =>
    exact ih nextFollows (follows.step nextFollows)

/-- An inverse that is found is one, and it is below the modulus. -/
theorem mul_of_inverse? {modulus number inverse : Nat} (positive : 0 < modulus)
    (found : inverse? modulus number = some inverse) :
    number * inverse ≡ 1 [MOD modulus] ∧ inverse < modulus := by
  have start : Follows modulus number modulus 0 := by
    unfold Follows
    rw [mul_zero]
    exact (Int.modEq_zero_iff_dvd.mpr dvd_rfl).symm
  have next : Follows modulus number (number % modulus) 1 := by
    unfold Follows
    rw [mul_one, Int.natCast_mod]
    exact (Int.mod_modEq _ _).symm
  have ends := start.euclid next
  unfold inverse? at found
  split at found
  · rename_i cofactor isOne
    rw [isOne] at ends
    cases found
    have nonneg : 0 ≤ cofactor % modulus :=
      Int.emod_nonneg _ (Int.natCast_ne_zero.mpr positive.ne')
    have isInverse : (((cofactor.emod modulus).toNat : Nat) : Int) = cofactor % modulus :=
      Int.toNat_of_nonneg nonneg
    refine ⟨Int.natCast_modEq_iff.mp ?_, Int.ofNat_lt.mp ?_⟩
    · rw [Nat.cast_mul, isInverse]
      exact ((Int.mod_modEq cofactor modulus).mul_left _).trans ends
    · rw [isInverse]
      exact Int.emod_lt_of_pos _ (Int.natCast_pos.mpr positive)
  · cases found

/-- Euclid's algorithm ends with the greatest common divisor. -/
theorem euclid_fst (remainder next : Nat) (cofactor nextCofactor : Int) :
    (euclid remainder next cofactor nextCofactor).1 = remainder.gcd next := by
  fun_induction euclid remainder next cofactor nextCofactor with
  | case1 remainder cofactor nextCofactor => exact (Nat.gcd_zero_right remainder).symm
  | case2 remainder next cofactor nextCofactor notZero ih =>
    rw [ih, Nat.gcd_comm remainder next, Nat.gcd_rec next remainder, Nat.gcd_comm]

/-- A number without a common divisor with the modulus has an inverse. -/
theorem exists_inverse?_of_coprime {modulus number : Nat} (coprime : number.Coprime modulus) :
    ∃ inverse, inverse? modulus number = some inverse := by
  have ends := euclid_fst modulus (number % modulus) 0 1
  rw [Nat.gcd_comm, ← Nat.gcd_rec, Nat.gcd_comm, coprime.gcd_eq_one] at ends
  unfold inverse?
  split
  · exact ⟨_, rfl⟩
  · rename_i notOne
    exact (notOne _ (Prod.ext ends rfl)).elim

/-- Modulo a prime, every number but zero has an inverse, and it is that of the field. -/
theorem exists_inverse?_of_prime {modulus number : Nat} [isPrime : Fact modulus.Prime]
    (nonzero : (number : ZMod modulus) ≠ 0) :
    ∃ inverse, inverse? modulus number = some inverse ∧
      (inverse : ZMod modulus) = (number : ZMod modulus)⁻¹ := by
  have coprime : number.Coprime modulus :=
    (isPrime.out.coprime_iff_not_dvd.mpr fun divides =>
      nonzero ((ZMod.natCast_eq_zero_iff _ _).mpr divides)).symm
  obtain ⟨inverse, found⟩ := exists_inverse?_of_coprime coprime
  have product := (ZMod.natCast_eq_natCast_iff _ _ _).mpr (mul_of_inverse? isPrime.out.pos found).1
  rw [Nat.cast_mul, Nat.cast_one] at product
  exact ⟨inverse, found, eq_inv_of_mul_eq_one_right product⟩

end Signet.Modular
