import Mathlib.FieldTheory.Finite.Basic
import Signet.Proofs.DigestSigners
import Signet.Proofs.Primality
import Signet.Proofs.PublicKeyTexts
import Signet.Proofs.RsaKeys

/-!
# RSA signatures

An RSA key signs a digest by raising a block to its private exponent. The block is that of PKCS#1
v1.5: it fills the modulus, and names the hash in front of the digest (`Rsa.paddedBlock_eq`). If the
two factors of the key are primes, the public exponent undoes the private one, on every number and
not only on those without a common divisor with the modulus (`Rsa.PrivateKey.IsMadeOf.pow_modEq`),
so a signature leads back to the block; and the block tells hash and digest (`Rsa.pkcs1Block_inj`),
so no signature is good for two of them.
-/

namespace Signet

namespace Rsa

/-! ## Blocks -/

/-- The octets that name the hash in front of a digest. -/
def digestInfoLead : HashAlgorithm → Octets
  | .sha224 =>
    [0x30, 0x2d, 0x30, 0x0d, 0x06, 0x09, 0x60, 0x86, 0x48, 0x01, 0x65, 0x03, 0x04, 0x02, 0x04,
      0x05, 0x00, 0x04, 0x1c]
  | .sha256 =>
    [0x30, 0x31, 0x30, 0x0d, 0x06, 0x09, 0x60, 0x86, 0x48, 0x01, 0x65, 0x03, 0x04, 0x02, 0x01,
      0x05, 0x00, 0x04, 0x20]
  | .sha384 =>
    [0x30, 0x41, 0x30, 0x0d, 0x06, 0x09, 0x60, 0x86, 0x48, 0x01, 0x65, 0x03, 0x04, 0x02, 0x02,
      0x05, 0x00, 0x04, 0x30]
  | .sha512 =>
    [0x30, 0x51, 0x30, 0x0d, 0x06, 0x09, 0x60, 0x86, 0x48, 0x01, 0x65, 0x03, 0x04, 0x02, 0x03,
      0x05, 0x00, 0x04, 0x40]

/-- The block of PKCS#1 v1.5 for a digest, as the standard writes it down. -/
def pkcs1Block (hash : HashAlgorithm) (digest : Octets) : Octets :=
  [0x00, 0x01] ++ List.replicate (234 - hash.digestLength) 0xFF ++ [0x00] ++
    digestInfoLead hash ++ digest

section Blocks

variable {hash otherHash : HashAlgorithm} {digest otherDigest : Octets}

theorem length_digestInfoLead (hash : HashAlgorithm) : (digestInfoLead hash).length = 19 := by
  cases hash with
  | sha224 | sha256 | sha384 | sha512 => rfl

theorem digestLength_le (hash : HashAlgorithm) : hash.digestLength ≤ 64 := by
  cases hash with
  | sha224 | sha256 | sha384 | sha512 => decide

theorem digestInfo_eq (fits : digest.length = hash.digestLength) :
    digestInfo hash digest = digestInfoLead hash ++ digest := by
  have digestFew : digest.length < 128 :=
    fits ▸ Nat.lt_of_le_of_lt (digestLength_le hash) (by decide)
  have nameFew (hash : HashAlgorithm) :
      (Der.sequence [Der.objectIdentifier (hashIdentifier hash), Der.null]).length = 15 := by
    cases hash with
    | sha224 | sha256 | sha384 | sha512 => decide
  have few : (Der.sequence [Der.objectIdentifier (hashIdentifier hash), Der.null] ++
      0x04 :: UInt8.ofNat digest.length :: digest).length = 17 + hash.digestLength := by
    rw [List.length_append, nameFew, List.length_cons, List.length_cons, fits]
    omega
  have isFew : 17 + hash.digestLength < 128 :=
    Nat.lt_of_le_of_lt (Nat.add_le_add_left (digestLength_le hash) 17) (by decide)
  unfold digestInfo
  rw [Der.octetString, Der.element_of_lt digestFew, Der.sequence, List.flatten_cons,
    List.flatten_singleton, Der.element_of_lt (few.symm ▸ isFew), few, fits]
  cases hash with
  | sha224 | sha256 | sha384 | sha512 => rfl

theorem length_pkcs1Block (fits : digest.length = hash.digestLength) :
    (pkcs1Block hash digest).length = 256 := by
  have few := digestLength_le hash
  unfold pkcs1Block
  simp only [List.length_append, List.length_replicate, length_digestInfoLead, List.length_cons,
    List.length_nil, fits]
  omega

/-- What is signed is the block of the standard. -/
theorem paddedBlock_eq (fits : digest.length = hash.digestLength) :
    paddedBlock hash digest = pkcs1Block hash digest := by
  unfold paddedBlock pkcs1Block blockLength
  dsimp only
  rw [digestInfo_eq fits, List.length_append, length_digestInfoLead, fits, ← Nat.sub_sub]
  simp

/-- Where a filling ends is told by what follows it. -/
theorem replicate_append_inj {octet other : UInt8} (different : other ≠ octet)
    {count otherCount : Nat} {rest otherRest : Octets}
    (same : List.replicate count octet ++ other :: rest =
      List.replicate otherCount octet ++ other :: otherRest) :
    count = otherCount ∧ rest = otherRest := by
  induction count generalizing otherCount with
  | zero =>
    cases otherCount with
    | zero => exact ⟨rfl, (List.cons.inj same).2⟩
    | succ otherCount => exact absurd (List.cons.inj same).1 different
  | succ count ih =>
    cases otherCount with
    | zero => exact absurd (List.cons.inj same).1.symm different
    | succ otherCount =>
      obtain ⟨counts, rests⟩ := ih (List.cons.inj same).2
      exact ⟨congrArg (· + 1) counts, rests⟩

theorem digestLength_inj (same : hash.digestLength = otherHash.digestLength) :
    hash = otherHash := by
  cases hash with
  | sha224 | sha256 | sha384 | sha512 =>
    cases otherHash with
    | sha224 | sha256 | sha384 | sha512 => first | rfl | exact nomatch same

/-- The block tells hash and digest. -/
theorem pkcs1Block_inj (same : pkcs1Block hash digest = pkcs1Block otherHash otherDigest) :
    hash = otherHash ∧ digest = otherDigest := by
  have opened (hash : HashAlgorithm) (digest : Octets) : pkcs1Block hash digest =
      0x00 :: 0x01 :: (List.replicate (234 - hash.digestLength) 0xFF ++
        0x00 :: (digestInfoLead hash ++ digest)) := by
    simp [pkcs1Block]
  rw [opened, opened, List.cons.injEq, List.cons.injEq] at same
  obtain ⟨counts, infos⟩ := replicate_append_inj (by decide) same.2.2
  have few := digestLength_le hash
  have otherFew := digestLength_le otherHash
  obtain rfl := digestLength_inj (show hash.digestLength = otherHash.digestLength by omega)
  exact ⟨rfl, List.append_cancel_left infos⟩

end Blocks

/-! ## Powers -/

/-- An exponent that is one, up to multiples of `p - 1`, changes no number modulo a prime. -/
theorem pow_modEq_of_prime {p exponent : Nat} (isPrime : p.Prime) (positive : 0 < exponent)
    (undone : exponent ≡ 1 [MOD p - 1]) (number : Nat) :
    number ^ exponent ≡ number [MOD p] := by
  by_cases divides : p ∣ number
  · have isZero : number ≡ 0 [MOD p] := (Nat.modEq_zero_iff_dvd).mpr divides
    calc number ^ exponent ≡ 0 ^ exponent [MOD p] := isZero.pow exponent
      _ ≡ 0 [MOD p] := by rw [Nat.zero_pow positive]
      _ ≡ number [MOD p] := isZero.symm
  · obtain ⟨multiple, isMultiple⟩ := (Nat.modEq_iff_dvd' positive).mp undone.symm
    have coprime : number.Coprime p := (isPrime.coprime_iff_not_dvd.mpr divides).symm
    have fermat : number ^ (p - 1) ≡ 1 [MOD p] := by
      rw [← Nat.totient_prime isPrime]
      exact Nat.ModEq.pow_totient coprime
    calc number ^ exponent = (number ^ (p - 1)) ^ multiple * number := by
          rw [← Nat.pow_mul, ← isMultiple, ← Nat.pow_succ, Nat.succ_eq_add_one,
            Nat.sub_add_cancel positive]
      _ ≡ 1 ^ multiple * number [MOD p] := (fermat.pow multiple).mul_right number
      _ = number := by rw [Nat.one_pow, Nat.one_mul]

/-- Two exponents of which one undoes the other lead back to a number below the modulus. -/
theorem pow_pow_of_undone {modulus number first second : Nat}
    (undone : number ^ (second * first) ≡ number [MOD modulus]) (below : number < modulus) :
    Modular.pow modulus number first ^ second % modulus = number := by
  rw [Modular.pow_eq, ← Nat.pow_mod, ← Nat.pow_mul, Nat.mul_comm,
    Nat.mod_eq_of_modEq undone below]

namespace PrivateKey.IsMadeOf

variable {key : PrivateKey} {p q : Nat}

/-- The public exponent undoes the private one, on every number. -/
theorem pow_modEq (made : key.IsMadeOf p q) (isPrime : p.Prime) (otherPrime : q.Prime)
    (number : Nat) : number ^ (65537 * key.exponent) ≡ number [MOD key.modulus] := by
  have positive : 0 < 65537 * key.exponent := by
    by_contra isZero
    have undone := made.inverse
    rw [Nat.eq_zero_of_not_pos isZero] at undone
    have totient := made.left.one_lt_totient made.right
    exact Nat.lt_irrefl _ (totient.trans_le (Nat.le_of_dvd Nat.one_pos
      ((Nat.modEq_iff_dvd' (Nat.zero_le 1)).mp undone)))
  have coprime : p.Coprime q := (Nat.coprime_primes isPrime otherPrime).mpr made.different
  rw [made.modulus, ← Nat.modEq_and_modEq_iff_modEq_mul coprime]
  exact ⟨pow_modEq_of_prime isPrime positive (made.inverse.of_mul_right _) number,
    pow_modEq_of_prime otherPrime positive (made.inverse.of_mul_left _) number⟩

end PrivateKey.IsMadeOf

/-! ## Signatures -/

theorem lt_of_size {number other : Nat} (less : number.size < other.size) : number < other :=
  Nat.lt_of_not_le fun le => Nat.not_le.mpr less (Nat.size_le_size le)

/-- The block is below every modulus of 2048 bits, since its first octet is zero. -/
theorem pkcs1Block_lt {hash : HashAlgorithm} {digest : Octets} {modulus : Nat}
    (fits : digest.length = hash.digestLength) (size : modulus.size = 2048) :
    Octets.toNat (pkcs1Block hash digest) < modulus := by
  have length := length_pkcs1Block fits
  rw [pkcs1Block, List.append_assoc, List.append_assoc, List.append_assoc,
    List.cons_append] at length ⊢
  rw [Octets.toNat_cons, UInt8.toNat_zero, Nat.zero_mul, Nat.zero_add]
  refine lt_of_size (Nat.lt_of_le_of_lt (Octets.size_toNat_le _) ?_)
  rw [Nat.succ.inj length, size]
  decide

section Signatures

variable {key : PrivateKey} {p q : Nat} {hash : HashAlgorithm} {digest : Octets}

/-- A signature has 256 octets, is below the modulus, and leads back to the block. -/
structure IsSignature (modulus : Nat) (hash : HashAlgorithm) (digest signature : Octets) :
    Prop where
  length : signature.length = 256
  below : Octets.toNat signature < modulus
  verifies : Octets.ofNat 256 (Octets.toNat signature ^ 65537 % modulus) = pkcs1Block hash digest

theorem IsSignature.unique {modulus : Nat} {otherHash : HashAlgorithm}
    {otherDigest signature : Octets} (isSignature : IsSignature modulus hash digest signature)
    (other : IsSignature modulus otherHash otherDigest signature) :
    hash = otherHash ∧ digest = otherDigest :=
  pkcs1Block_inj (isSignature.verifies.symm.trans other.verifies)

/-- What a key signs verifies. -/
theorem PrivateKey.IsMadeOf.sign (made : key.IsMadeOf p q) (isPrime : p.Prime)
    (otherPrime : q.Prime) (fits : digest.length = hash.digestLength) :
    ∃ signature, key.sign? hash digest = some signature ∧
      IsSignature key.modulus hash digest signature := by
  have block_lt : Octets.toNat (pkcs1Block hash digest) < key.modulus :=
    pkcs1Block_lt fits made.size
  have undone := pow_pow_of_undone (made.pow_modEq isPrime otherPrime _) block_lt
  have below : Modular.pow key.modulus (Octets.toNat (pkcs1Block hash digest)) key.exponent <
      key.modulus := by
    rw [Modular.pow_eq]
    exact Nat.mod_lt _ (Nat.zero_lt_of_lt block_lt)
  have signed : key.sign? hash digest = some (Octets.ofNat 256
      (Modular.pow key.modulus (Octets.toNat (pkcs1Block hash digest)) key.exponent)) := by
    rw [← paddedBlock_eq fits]
    exact if_pos fits
  generalize Modular.pow key.modulus (Octets.toNat (pkcs1Block hash digest)) key.exponent = number
    at undone below signed
  have isNumber : Octets.toNat (Octets.ofNat 256 number) = number := by
    refine Octets.toNat_ofNat_of_size (Nat.le_trans (Nat.size_le_size below.le) ?_)
    rw [made.size]
  refine ⟨_, signed, Octets.length_ofNat _ _, isNumber.symm ▸ below, ?_⟩
  have block : Octets.ofNat 256 (Octets.toNat (pkcs1Block hash digest)) =
      pkcs1Block hash digest := by
    refine Octets.toNat_inj ?_ ?_
    · rw [Octets.length_ofNat, length_pkcs1Block fits]
    · refine Octets.toNat_ofNat_of_size (Nat.le_trans (Octets.size_toNat_le _) ?_)
      rw [length_pkcs1Block fits]
  rw [isNumber, undone, block]

end Signatures

end Rsa

/-- That a key signs as PKCS#1 v1.5 with a modulus: it prints the modulus with the public exponent,
it signs just the digests of the length of their hash, and no signature is good for two digests or
two hashes. -/
structure DigestSigner.SignsUnder (signer : DigestSigner) (modulus : Nat) : Prop where
  size : modulus.size = 2048
  printed : ∃ pem, signer.publicKeyPem = .value pem ∧
    Rsa.readPublicKey? pem = some (modulus, 65537)
  signs : ∀ (hash : HashAlgorithm) (digest : Octets), digest.length = hash.digestLength →
    ∃ signature, signer.sign digest hash = .value signature ∧
      Rsa.IsSignature modulus hash digest signature
  refuses : ∀ (hash : HashAlgorithm) (digest : Octets), digest.length ≠ hash.digestLength →
    ∃ failure, signer.sign digest hash = .failed failure
  binds : ∀ (hash otherHash : HashAlgorithm) (digest otherDigest signature : Octets),
    signer.sign digest hash = .value signature →
      signer.sign otherDigest otherHash = .value signature →
      hash = otherHash ∧ digest = otherDigest

namespace Rsa

variable {key : PrivateKey} {p q : Nat} {hash : HashAlgorithm} {digest : Octets}

theorem sign_ofRsa_of_fits {signature : Octets} (signed : key.sign? hash digest = some signature) :
    (DigestSigner.ofRsa key).sign digest hash = .value signature := by
  unfold DigestSigner.ofRsa
  dsimp only
  rw [signed]

theorem sign_ofRsa_of_unfit (unfit : digest.length ≠ hash.digestLength) :
    ∃ failure, (DigestSigner.ofRsa key).sign digest hash = .failed failure := by
  unfold DigestSigner.ofRsa PrivateKey.sign?
  dsimp only
  rw [if_neg unfit]
  exact ⟨_, rfl⟩

/-- A number of 2048 bits is short enough to be read back. -/
theorem log2_lt_of_size {number : Nat} (size : number.size = 2048) : number.log2 < 2 ^ 32 := by
  have nonzero : number ≠ 0 := by
    rintro rfl
    exact nomatch size
  have log : number.log2 < number.size := Nat.lt_size.mpr (Nat.log2_self_le nonzero)
  exact Nat.lt_trans log (size ▸ by decide)

/-- A key that is made of two primes signs as it should. -/
theorem PrivateKey.IsMadeOf.signsUnder (made : key.IsMadeOf p q) (isPrime : p.Prime)
    (otherPrime : q.Prime) : (DigestSigner.ofRsa key).SignsUnder key.modulus := by
  have signs {hash : HashAlgorithm} {digest signature : Octets}
      (signed : (DigestSigner.ofRsa key).sign digest hash = .value signature) :
      IsSignature key.modulus hash digest signature := by
    by_cases fits : digest.length = hash.digestLength
    · obtain ⟨other, isOther, isSignature⟩ := made.sign isPrime otherPrime fits
      cases signed.symm.trans (sign_ofRsa_of_fits isOther)
      exact isSignature
    · obtain ⟨failure, fails⟩ := sign_ofRsa_of_unfit fits
      exact nomatch signed.symm.trans fails
  refine ⟨made.size, ⟨_, rfl, key.readPublicKey?_publicKeyPem (log2_lt_of_size made.size)⟩,
    fun hash digest fits => ?_, fun hash digest => sign_ofRsa_of_unfit,
    fun hash otherHash digest otherDigest signature signed otherSigned =>
      (signs signed).unique (signs otherSigned)⟩
  obtain ⟨signature, signed, isSignature⟩ := made.sign isPrime otherPrime fits
  exact ⟨signature, sign_ofRsa_of_fits signed, isSignature⟩

end Rsa

/-! ## Two primes -/

namespace Rsa

/-- A prime of 1024 bits. -/
def firstPrime : Nat := 2 ^ 863 * 3 ^ 100 * 5 ^ 1 + 1

/-- Another prime of 1024 bits. -/
def secondPrime : Nat := 2 ^ 832 * 3 ^ 118 * 5 ^ 2 + 1

theorem prime_of_mem_factors : ∀ number ∈ [2, 3, 5], number.Prime := by
  decide

/-- Why both are primes: the numbers before them have small factors only. -/
theorem isChain_primes : Certificate.IsChain [2, 3, 5]
    [⟨firstPrime, 22, [(2, 863), (3, 100), (5, 1)]⟩,
      ⟨secondPrime, 7, [(2, 832), (3, 118), (5, 2)]⟩] := by
  decide +kernel

theorem prime_firstPrime : firstPrime.Prime :=
  isChain_primes.prime prime_of_mem_factors firstPrime (.head _)

theorem prime_secondPrime : secondPrime.Prime :=
  isChain_primes.prime prime_of_mem_factors secondPrime (.tail _ (.head _))

theorem isFactor_firstPrime : IsFactor firstPrime :=
  ⟨by decide +kernel, by decide +kernel⟩

theorem isFactor_secondPrime : IsFactor secondPrime :=
  ⟨by decide +kernel, by decide +kernel⟩

end Rsa

/-! ## Keys of seeds -/

/-- **RSA signatures verify and bind digest and hash.** Every seed that gives an RSA key gives one
that is made of two different numbers of 1024 bits with their two highest bits set, and of an
exponent that undoes the public one. If these two numbers are primes, which generation only tests,
the key prints a modulus of 2048 bits and signs with it: digests of the length of their hash get a
signature of 256 octets that is below the modulus and leads back to their block, all others are
refused, and one signature is never given out for two hashes or two digests. So does every other key
that is made of two primes in this way. -/
theorem rsa_signatures_verify_and_bind :
    (∀ seed signer, KeyAlgorithm.rsa.deriveKey seed = .ok signer →
      ∃ key p q, signer = .ofRsa key ∧ Rsa.PrivateKey.IsMadeOf key p q ∧
        (p.Prime → q.Prime → signer.SignsUnder key.modulus)) ∧
    ∀ key p q, Rsa.PrivateKey.IsMadeOf key p q → p.Prime → q.Prime →
      (DigestSigner.ofRsa key).SignsUnder key.modulus := by
  refine ⟨fun seed signer derived => ?_, fun key p q made => made.signsUnder⟩
  cases KeyAlgorithm.deriveKey_eq_ok_iff.mp derived with
  | rsa ofSeed =>
    obtain ⟨p, q, made⟩ := Rsa.PrivateKey.exists_isMadeOf_of_seed ofSeed
    exact ⟨_, p, q, rfl, made, made.signsUnder⟩

/-- There are seeds that give keys, and there are keys of two primes: this one signs a digest for
the hash that it has the length of, and refuses it for another. -/
theorem rsa_signatures_verify_and_bind_for_two_primes :
    (∃ key p q, KeyAlgorithm.rsa.deriveKey "red rose hen" = .ok (.ofRsa key) ∧
      Rsa.PrivateKey.IsMadeOf key p q ∧
      (p.Prime → q.Prime → (DigestSigner.ofRsa key).SignsUnder key.modulus)) ∧
    ∃ key : Rsa.PrivateKey, key.IsMadeOf Rsa.firstPrime Rsa.secondPrime ∧
      (∃ signature, (DigestSigner.ofRsa key).sign (List.replicate 32 0) .sha256 =
        .value signature ∧
        Rsa.IsSignature key.modulus .sha256 (List.replicate 32 0) signature) ∧
      ∃ failure, (DigestSigner.ofRsa key).sign (List.replicate 32 0) .sha512 =
        .failed failure := by
  obtain ⟨ofSeeds, ofPrimes⟩ := rsa_signatures_verify_and_bind
  refine ⟨?_, ?_⟩
  · have derives : (Rsa.PrivateKey.ofSeed? "red rose hen").isSome := by decide +kernel
    obtain ⟨secret, ofSeed⟩ := Option.isSome_iff_exists.mp derives
    have derived : KeyAlgorithm.rsa.deriveKey "red rose hen" = .ok (.ofRsa secret) :=
      KeyAlgorithm.deriveKey_eq_ok_iff.mpr (.rsa ofSeed)
    obtain ⟨key, p, q, isKey, made, signs⟩ := ofSeeds _ _ derived
    rw [isKey] at derived signs
    exact ⟨key, p, q, derived, made, signs⟩
  · have makes : (Rsa.PrivateKey.ofPrimes? Rsa.firstPrime Rsa.secondPrime).isSome := by
      decide +kernel
    obtain ⟨key, isKey⟩ := Option.isSome_iff_exists.mp makes
    have made : key.IsMadeOf Rsa.firstPrime Rsa.secondPrime :=
      Rsa.PrivateKey.isMadeOf_of_factors Rsa.isFactor_firstPrime Rsa.isFactor_secondPrime isKey
    have signs := ofPrimes key _ _ made Rsa.prime_firstPrime Rsa.prime_secondPrime
    exact ⟨key, made, signs.signs .sha256 _ rfl, signs.refuses .sha512 _ nofun⟩

end Signet
