import Signet.Der
import Signet.HashAlgorithm
import Signet.Modular
import Signet.Pem

/-!
# RSA signatures

A digest is wrapped in a block that names its hash and fills the whole modulus, and the block is
raised to the private exponent. The public exponent is 65537.
-/

namespace Signet.Rsa

def publicExponent : Nat := 65537

/-- A private key: the product of its two primes, and the exponent that undoes the public one. -/
structure PrivateKey where
  modulus : Nat
  exponent : Nat
  deriving DecidableEq, Repr

/-- How many octets a block and a signature have. -/
def blockLength : Nat := 256

/-- The packed arcs that name a hash. -/
def hashIdentifier : HashAlgorithm → Octets
  | .sha224 => [0x60, 0x86, 0x48, 0x01, 0x65, 0x03, 0x04, 0x02, 0x04]
  | .sha256 => [0x60, 0x86, 0x48, 0x01, 0x65, 0x03, 0x04, 0x02, 0x01]
  | .sha384 => [0x60, 0x86, 0x48, 0x01, 0x65, 0x03, 0x04, 0x02, 0x02]
  | .sha512 => [0x60, 0x86, 0x48, 0x01, 0x65, 0x03, 0x04, 0x02, 0x03]

/-- A digest together with the name of its hash. -/
def digestInfo (hash : HashAlgorithm) (digest : Octets) : Octets :=
  Der.sequence [
    Der.sequence [Der.objectIdentifier (hashIdentifier hash), Der.null],
    Der.octetString digest]

/-- The block that is signed: the digest information behind a filling of set bits. -/
def paddedBlock (hash : HashAlgorithm) (digest : Octets) : Octets :=
  let info := digestInfo hash digest
  0 :: 1 :: List.replicate (blockLength - 3 - info.length) 0xFF ++ 0 :: info

/-- The signature of a digest, which must have the length of its hash. -/
def PrivateKey.sign? (key : PrivateKey) (hash : HashAlgorithm) (digest : Octets) :
    Option Octets :=
  if digest.length = hash.digestLength then
    some (Octets.ofNat blockLength
      (Modular.pow key.modulus (Octets.toNat (paddedBlock hash digest)) key.exponent))
  else none

/-- The encoding of a public key together with the name of its kind. -/
def publicKeyInfo (modulus : Nat) : Octets :=
  Der.sequence [
    Der.sequence [
      Der.objectIdentifier [0x2a, 0x86, 0x48, 0x86, 0xf7, 0x0d, 0x01, 0x01, 0x01], Der.null],
    Der.bitString (Der.sequence [Der.integer modulus, Der.integer publicExponent])]

def PrivateKey.publicKeyPem (key : PrivateKey) : String :=
  Pem.publicKey (publicKeyInfo key.modulus)

end Signet.Rsa
