import Signet.Ending
import Signet.Failure
import Signet.Rsa.Generation
import Signet.Secp256k1.Signature

/-!
# Keys that sign digests

A `DigestSigner` is one key, whatever it is made of: it has the name of its algorithm, signs digests
and prints its public key. The two kinds that a configuration can name are derived from seeds.
-/

namespace Signet

structure DigestSigner where
  /-- The name under which the key's algorithm is logged. -/
  algorithm : String
  sign : (digest : Octets) → (hash : HashAlgorithm) → Ending Failure Octets
  publicKeyPem : Ending Failure String

namespace DigestSigner

/-- Signs with secp256k1. The hash does not matter, only the length of the digest. -/
def ofSecp256k1 (key : Secp256k1.PrivateKey) : DigestSigner where
  algorithm := "secp256k1"
  sign digest _ :=
    match key.sign? digest with
    | some signature => .value signature.encode
    | none => .failed { outermost := "secp256k1 sign_prehash failed: signature error" }
  publicKeyPem := .value key.publicKeyPem

/-- Signs with RSA. The digest must have the length of its hash. -/
def ofRsa (key : Rsa.PrivateKey) : DigestSigner where
  algorithm := "rsa-pkcs1v15"
  sign digest hash :=
    match key.sign? hash digest with
    | some signature => .value signature
    | none =>
      .failed (Failure.within s!"RSA PKCS#1 v1.5 signing with {hash.name}"
        { outermost := "input must be hashed" })
  publicKeyPem := .value key.publicKeyPem

end DigestSigner

inductive KeyAlgorithm
  | secp256k1
  | rsa
  deriving DecidableEq, Repr

namespace KeyAlgorithm

def name : KeyAlgorithm → String
  | secp256k1 => "secp256k1"
  | rsa => "rsa"

def deriveKey (algorithm : KeyAlgorithm) (seed : String) : Except Failure DigestSigner :=
  match algorithm with
  | secp256k1 =>
    match Secp256k1.PrivateKey.ofSeed? seed with
    | some key => .ok (.ofSecp256k1 key)
    | none => .error { outermost := "invalid seed: signature error" }
  | rsa =>
    match Rsa.PrivateKey.ofSeed? seed with
    | some key => .ok (.ofRsa key)
    | none => .error { outermost := "generating RSA key from seed" }

end KeyAlgorithm

end Signet
