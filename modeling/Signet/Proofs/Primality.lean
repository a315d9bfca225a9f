import Mathlib.NumberTheory.LucasPrimality
import Signet.Proofs.ModularArithmetic

/-!
# Primality

A number is prime if it has a base whose powers come to one just at the multiples of the number
before it. That they do not come to one earlier is tested at the quotients of the number before it
by its prime factors. `Certificate` holds what the test needs, and since the factors may be large
themselves, certificates come in chains, each resting on the numbers that the ones before it certify
(`IsChain.prime`).
-/

namespace Signet

/-- A number, a base for it, and the factors of the number before it, each with its exponent. -/
structure Certificate where
  number : Nat
  base : Nat
  factors : List (Nat × Nat)

namespace Certificate

/-- The power of the base to an exponent. -/
def power (certificate : Certificate) (exponent : Nat) : Nat :=
  Modular.pow certificate.number certificate.base exponent

/-- What has to be computed of a certificate. -/
structure Passes (certificate : Certificate) : Prop where
  factored : certificate.number =
    (certificate.factors.map fun factor => factor.1 ^ factor.2).prod + 1
  whole : certificate.power (certificate.number - 1) = 1
  parts : ∀ factor ∈ certificate.factors,
    certificate.power ((certificate.number - 1) / factor.1) ≠ 1

instance : DecidablePred Passes := fun certificate =>
  decidable_of_iff
    (certificate.number = (certificate.factors.map fun factor => factor.1 ^ factor.2).prod + 1 ∧
      certificate.power (certificate.number - 1) = 1 ∧
      ∀ factor ∈ certificate.factors,
        certificate.power ((certificate.number - 1) / factor.1) ≠ 1)
    ⟨fun ⟨factored, whole, parts⟩ => ⟨factored, whole, parts⟩,
      fun ⟨factored, whole, parts⟩ => ⟨factored, whole, parts⟩⟩

variable {certificate : Certificate}

/-- One has no powers that come to one, but to zero. -/
theorem Passes.one_lt (passes : certificate.Passes) : 1 < certificate.number := by
  have whole := passes.whole
  have factored := passes.factored
  by_contra small
  have isOne : certificate.number = 1 := by omega
  rw [power, Modular.pow_eq, isOne, Nat.mod_one] at whole
  exact nomatch whole

theorem Passes.cast_pow_eq_one_iff (passes : certificate.Passes) (exponent : Nat) :
    (certificate.base : ZMod certificate.number) ^ exponent = 1 ↔
      certificate.power exponent = 1 := by
  rw [power, Modular.pow_eq, ← Nat.cast_pow, ← Nat.cast_one, ZMod.natCast_eq_natCast_iff',
    Nat.mod_eq_of_lt passes.one_lt]

/-- **Lucas's test.** What passes is prime if its factors are. -/
theorem Passes.prime (passes : certificate.Passes)
    (primes : ∀ factor ∈ certificate.factors, factor.1.Prime) : certificate.number.Prime := by
  refine lucas_primality certificate.number (certificate.base : ZMod certificate.number)
    ((passes.cast_pow_eq_one_iff _).mpr passes.whole) fun divisor isPrime divides => ?_
  rw [ne_eq, passes.cast_pow_eq_one_iff]
  -- A prime divisor of the product divides one of the powers, so it is the base of this power.
  have isProduct := passes.factored
  rw [isProduct, Nat.add_sub_cancel] at divides
  obtain ⟨power, isPower, dividesPower⟩ := (Prime.dvd_prod_iff isPrime.prime).mp divides
  obtain ⟨factor, isFactor, rfl⟩ := List.mem_map.mp isPower
  have same : divisor = factor.1 := (Nat.prime_dvd_prime_iff_eq isPrime (primes factor isFactor)).mp
    (isPrime.dvd_of_dvd_pow dividesPower)
  rw [same]
  exact passes.parts factor isFactor

/-- That each certificate rests on known numbers and on those that are certified before it. -/
def IsChain (known : List Nat) : List Certificate → Prop
  | [] => True
  | certificate :: certificates =>
    (∀ factor ∈ certificate.factors, factor.1 ∈ known) ∧ certificate.Passes ∧
      IsChain (certificate.number :: known) certificates

instance IsChain.decidable (known : List Nat) :
    (certificates : List Certificate) → Decidable (IsChain known certificates)
  | [] => isTrue trivial
  | certificate :: certificates =>
    have := decidable (certificate.number :: known) certificates
    inferInstanceAs (Decidable (_ ∧ _ ∧ _))

/-- The numbers of a chain that rests on primes are primes. -/
theorem IsChain.prime {known : List Nat} {certificates : List Certificate}
    (isChain : IsChain known certificates) (primes : ∀ number ∈ known, number.Prime) :
    ∀ number ∈ certificates.map Certificate.number, number.Prime := by
  induction certificates generalizing known with
  | nil => exact fun _ member => absurd member List.not_mem_nil
  | cons certificate certificates ih =>
    obtain ⟨rests, passes, others⟩ := isChain
    have isPrime : certificate.number.Prime :=
      passes.prime fun factor isFactor => primes factor.1 (rests factor isFactor)
    rw [List.map_cons, List.forall_mem_cons]
    exact ⟨isPrime, ih others (List.forall_mem_cons.mpr ⟨isPrime, primes⟩)⟩

end Certificate

end Signet
