import Signet.ChaCha20
import Signet.Rsa.Key
import Signet.Sha256

/-!
# RSA keys from seeds

The hash of a seed is the key of a stream of random octets, from which two primes of 1024 bits are
drawn one after the other. Each attempt takes 128 octets, sets the two highest bits and the lowest,
steps up over the multiples of small primes, and tests what it finds.
-/

namespace Signet.Rsa

/-! ## Primality -/

/-- Whether squaring reaches `number - 1` within `squarings` steps of a power. -/
def reachesMinusOne (number : Nat) : (squarings : Nat) → (power : Nat) → Bool
  | 0, _ => false
  | squarings + 1, power =>
    power == number - 1 || reachesMinusOne number squarings (power * power % number)

/-- How often two divides a number, with at least as much fuel as that, and the odd part. -/
def oddPart : (fuel : Nat) → (number : Nat) → Nat × Nat
  | 0, number => (0, number)
  | fuel + 1, number =>
    if number % 2 = 0 then
      let (twos, odd) := oddPart fuel (number / 2)
      (twos + 1, odd)
    else (0, number)

/-- Whether a base fails to show that an odd number is composite. -/
def passes (number : Nat) (base : Nat) : Bool :=
  let (twos, odd) := oddPart (number.log2 + 1) (number - 1)
  let power := Modular.pow number base odd
  power == 1 || reachesMinusOne number twos power

/-- The bases that candidates are tested with. -/
def testBases : List Nat :=
  [2, 3, 5, 7, 11, 13, 17, 19, 23, 29, 31, 37, 41, 43, 47, 53, 59, 61, 67, 71]

/-- Whether an odd number above all test bases passes for a prime. -/
def isProbablePrime (number : Nat) : Bool :=
  testBases.all (passes number)

/-! ## Drawing primes -/

def primeBits : Nat := 1024

/-- The odd primes whose multiples are stepped over before a candidate is tested. -/
def smallPrimes : List Nat :=
  [3, 5, 7, 11, 13, 17, 19, 23, 29, 31, 37, 41, 43, 47, 53]

/-- The first number, among `tries` numbers two apart, that no small prime divides. -/
def stepOver : (tries : Nat) → (number : Nat) → Option Nat
  | 0, _ => none
  | tries + 1, number =>
    if smallPrimes.all fun prime => number % prime != 0 then some number
    else stepOver tries (number + 2)

/-- The candidate that one attempt draws: 128 octets of the stream as a number, with its two highest
bits and its lowest bit set, moved up to the next number without small divisors. -/
def candidate? (key : Octets) (attempt : Nat) : Option Nat :=
  let drawn :=
    Octets.toNat (ChaCha20.block key (2 * attempt) ++ ChaCha20.block key (2 * attempt + 1))
  let highest := Nat.pow 2 (primeBits - 1) + Nat.pow 2 (primeBits - 2)
  stepOver 1000 ((drawn % Nat.pow 2 (primeBits - 2)) / 2 * 2 + 1 + highest)

/-- The first number that passes, among those that are found from an attempt on, and the attempt
after it. -/
def firstPassing? (find? : Nat → Option Nat) (passes : Nat → Bool) :
    (tries : Nat) → (attempt : Nat) → Option (Nat × Nat)
  | 0, _ => none
  | tries + 1, attempt =>
    match find? attempt with
    | some number =>
      if passes number then some (number, attempt + 1)
      else firstPassing? find? passes tries (attempt + 1)
    | none => firstPassing? find? passes tries (attempt + 1)

/-- Whether a candidate is not too long and passes for a prime. -/
def isGood (candidate : Nat) : Bool :=
  candidate < Nat.pow 2 primeBits && isProbablePrime candidate

/-- How many attempts are made at one prime. About one candidate in a hundred is prime. -/
def attemptsPerPrime : Nat := 100000

/-- The first prime among the candidates from an attempt on, and the attempt after it. -/
def prime? (key : Octets) (attempt : Nat) : Option (Nat × Nat) :=
  firstPassing? (candidate? key) isGood attemptsPerPrime attempt

/-- The private key of two primes, if they differ and the public exponent can be undone. -/
def PrivateKey.ofPrimes? (p q : Nat) : Option PrivateKey :=
  if p = q then none
  else
    match Modular.inverse? ((p - 1) * (q - 1)) publicExponent with
    | some exponent => some ⟨p * q, exponent⟩
    | none => none

/-- Draws pairs of primes until they make a key, at most `tries` pairs. -/
def PrivateKey.draw? (next? : Nat → Option (Nat × Nat)) :
    (tries : Nat) → (attempt : Nat) → Option PrivateKey
  | 0, _ => none
  | tries + 1, attempt =>
    match next? attempt with
    | none => none
    | some (p, attempt) =>
      match next? attempt with
      | none => none
      | some (q, attempt) =>
        match PrivateKey.ofPrimes? p q with
        | some privateKey => some privateKey
        | none => draw? next? tries attempt

def PrivateKey.ofSeed? (seed : String) : Option PrivateKey :=
  draw? (prime? (Sha256.hash (Octets.ofText seed))) 100 0

end Signet.Rsa
