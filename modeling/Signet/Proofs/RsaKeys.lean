import Mathlib.Data.Nat.Size
import Signet.Proofs.ModularArithmetic
import Signet.Rsa.Generation

/-!
# What RSA keys are made of

A key that is generated is the product of two different numbers of 1024 bits that have their two
highest bits set, with an exponent that undoes the public one (`Rsa.PrivateKey.IsMadeOf`), so it has
2048 bits (`Rsa.PrivateKey.IsMadeOf.size`). This holds for every seed that gives a key
(`Rsa.PrivateKey.exists_isMadeOf_of_seed`), and it follows the generator from the inside out: what a
candidate is, what stepping over small divisors keeps of it, and what drawing one candidate after
the other comes to. That the two numbers are primes is not part of it, since they are only tested
for it.
-/

namespace Signet.Rsa

/-! ## Highest bits -/

section HighestBits

variable {number other bits : Nat}

/-- A number that has as many bits as this, and is that large, has its two highest bits set. -/
theorem highestBits_of_between (least : 2 ^ (bits + 1) + 2 ^ bits ≤ number)
    (most : number < 2 ^ (bits + 2)) : number.size = bits + 2 ∧ number.testBit bits = true := by
  refine ⟨Nat.le_antisymm (Nat.size_le.mpr most) ?_, ?_⟩
  · exact Nat.lt_size.mpr (Nat.le_trans (Nat.le_add_right _ _) least)
  · have three : number / 2 ^ bits = 3 := by
      refine Nat.div_eq_of_lt_le ?_ ?_
      · calc 3 * 2 ^ bits = 2 ^ (bits + 1) + 2 ^ bits := by ring
          _ ≤ number := least
      · calc number < 2 ^ (bits + 2) := most
          _ = (3 + 1) * 2 ^ bits := by ring
    rw [Nat.testBit_eq_decide_div_mod_eq, three]
    rfl

/-- A number with its two highest bits set is three quarters of what it can be, or more. -/
theorem le_of_highestBits (size : number.size = bits + 2) (second : number.testBit bits = true) :
    3 * 2 ^ bits ≤ number := by
  have half : 2 * 2 ^ bits ≤ number := by
    rw [← Nat.pow_succ', ← Nat.lt_size, size]
    exact Nat.lt_succ_self _
  have atLeastTwo : 2 ≤ number / 2 ^ bits :=
    (Nat.le_div_iff_mul_le (Nat.two_pow_pos bits)).mpr half
  rw [Nat.testBit_eq_decide_div_mod_eq, decide_eq_true_eq] at second
  exact (Nat.le_div_iff_mul_le (Nat.two_pow_pos bits)).mp (by omega)

/-- The product of two numbers with their two highest bits set has as many bits as both together. -/
theorem size_mul_of_highestBits (size : number.size = bits + 2)
    (second : number.testBit bits = true) (otherSize : other.size = bits + 2)
    (otherSecond : other.testBit bits = true) :
    (number * other).size = bits + 2 + (bits + 2) := by
  refine Nat.le_antisymm (Nat.size_le.mpr ?_) (Nat.lt_size.mpr ?_)
  · rw [Nat.pow_add]
    exact Nat.mul_lt_mul'' (size ▸ Nat.lt_size_self number) (otherSize ▸ Nat.lt_size_self other)
  · calc 2 ^ (bits + 2 + (bits + 1)) = 8 * (2 ^ bits * 2 ^ bits) := by ring
      _ ≤ 9 * (2 ^ bits * 2 ^ bits) := Nat.mul_le_mul_right _ (by decide)
      _ = 3 * 2 ^ bits * (3 * 2 ^ bits) := by ring
      _ ≤ number * other :=
        Nat.mul_le_mul (le_of_highestBits size second) (le_of_highestBits otherSize otherSecond)

end HighestBits

/-! ## Factors -/

/-- That a number has 1024 bits, the two highest of them set. -/
structure IsFactor (number : Nat) : Prop where
  size : number.size = 1024
  second : number.testBit 1022 = true

/-- What a private key is made of. -/
structure PrivateKey.IsMadeOf (key : PrivateKey) (p q : Nat) : Prop where
  different : p ≠ q
  left : IsFactor p
  right : IsFactor q
  modulus : key.modulus = p * q
  inverse : 65537 * key.exponent ≡ 1 [MOD (p - 1) * (q - 1)]

/-- A factor is neither zero nor one nor two. -/
theorem IsFactor.one_lt_pred {number : Nat} (isFactor : IsFactor number) : 1 < number - 1 := by
  have four : 2 ^ 2 ≤ number := by
    rw [← Nat.lt_size, isFactor.size]
    decide
  omega

theorem IsFactor.one_lt_totient {p q : Nat} (left : IsFactor p) (right : IsFactor q) :
    1 < (p - 1) * (q - 1) :=
  Nat.one_lt_mul_iff.mpr ⟨Nat.lt_trans Nat.zero_lt_one left.one_lt_pred,
    Nat.lt_trans Nat.zero_lt_one right.one_lt_pred, Or.inl left.one_lt_pred⟩

/-- The modulus of a key has 2048 bits. -/
theorem PrivateKey.IsMadeOf.size {key : PrivateKey} {p q : Nat} (made : key.IsMadeOf p q) :
    key.modulus.size = 2048 := by
  rw [made.modulus]
  exact size_mul_of_highestBits made.left.size made.left.second made.right.size made.right.second

/-! ## Generation -/

theorem le_of_stepOver {tries number found : Nat} (finds : stepOver tries number = some found) :
    number ≤ found := by
  induction tries generalizing number with
  | zero => exact nomatch finds
  | succ tries ih =>
    unfold stepOver at finds
    split at finds
    · cases finds
      exact Nat.le_refl _
    · exact Nat.le_trans (Nat.le_add_right _ 2) (ih finds)

/-- A candidate has its two highest bits set, or it is longer. -/
theorem le_of_candidate {bits : Nat} (isBits : primeBits = bits + 2) {key : Octets}
    {attempt candidate : Nat} (draws : candidate? key attempt = some candidate) :
    2 ^ (bits + 1) + 2 ^ bits ≤ candidate := by
  unfold candidate? at draws
  rw [isBits] at draws
  exact Nat.le_trans (Nat.le_add_left _ _) (le_of_stepOver draws)

/-- What passes has been found, and it passes. -/
theorem exists_of_firstPassing {find? : Nat → Option Nat} {passes : Nat → Bool}
    {tries attempt number next : Nat}
    (finds : firstPassing? find? passes tries attempt = some (number, next)) :
    (∃ attempt, find? attempt = some number) ∧ passes number = true := by
  induction tries generalizing attempt with
  | zero => exact nomatch finds
  | succ tries ih =>
    unfold firstPassing? at finds
    split at finds
    · rename_i found isFound
      split at finds
      · rename_i isGood
        cases finds
        exact ⟨⟨attempt, isFound⟩, isGood⟩
      · exact ih finds
    · exact ih finds

theorem highestBits_of_prime {bits : Nat} (isBits : primeBits = bits + 2) {key : Octets}
    {attempt prime next : Nat} (draws : prime? key attempt = some (prime, next)) :
    prime.size = bits + 2 ∧ prime.testBit bits = true := by
  obtain ⟨⟨first, isCandidate⟩, good⟩ := exists_of_firstPassing draws
  unfold isGood at good
  rw [isBits, Bool.and_eq_true, decide_eq_true_eq] at good
  exact highestBits_of_between (le_of_candidate isBits isCandidate) good.1

theorem isFactor_of_prime {key : Octets} {attempt prime next : Nat}
    (draws : prime? key attempt = some (prime, next)) : IsFactor prime := by
  have isBits : primeBits = 1022 + 2 := rfl
  obtain ⟨size, second⟩ := highestBits_of_prime isBits draws
  exact ⟨size, second⟩

theorem PrivateKey.isMadeOf_of_factors {p q : Nat} {key : PrivateKey} (left : IsFactor p)
    (right : IsFactor q) (made : ofPrimes? p q = some key) : key.IsMadeOf p q := by
  unfold ofPrimes? at made
  split at made
  · cases made
  · rename_i different
    split at made
    · rename_i exponent found
      cases made
      have positive := Nat.lt_trans Nat.zero_lt_one (left.one_lt_totient right)
      exact ⟨different, left, right, rfl, (Modular.mul_of_inverse? positive found).1⟩
    · cases made

/-- A key that is drawn is made of two numbers that are drawn. -/
theorem PrivateKey.exists_of_draw {next? : Nat → Option (Nat × Nat)} {tries attempt : Nat}
    {key : PrivateKey} (draws : draw? next? tries attempt = some key) :
    ∃ p q, (∃ first second, next? first = some (p, second)) ∧
      (∃ first second, next? first = some (q, second)) ∧ ofPrimes? p q = some key := by
  induction tries generalizing attempt with
  | zero => exact nomatch draws
  | succ tries ih =>
    unfold draw? at draws
    split at draws
    · cases draws
    · rename_i p second drawsLeft
      split at draws
      · cases draws
      · rename_i q third drawsRight
        split at draws
        · rename_i made
          cases draws
          exact ⟨p, q, ⟨_, _, drawsLeft⟩, ⟨_, _, drawsRight⟩, made⟩
        · exact ih draws

/-- The key of every seed is made of two factors. -/
theorem PrivateKey.exists_isMadeOf_of_seed {seed : String} {key : PrivateKey}
    (derived : ofSeed? seed = some key) : ∃ p q, key.IsMadeOf p q := by
  obtain ⟨p, q, ⟨_, _, left⟩, ⟨_, _, right⟩, made⟩ := exists_of_draw derived
  exact ⟨p, q, isMadeOf_of_factors (isFactor_of_prime left) (isFactor_of_prime right) made⟩

end Signet.Rsa
