import Signet.Der
import Signet.Hmac
import Signet.Pem
import Signet.Secp256k1.Curve

/-!
# Signatures over secp256k1

A private key is a number below the order of the base point, its public key that multiple of the
base point. A digest of sixteen octets or more is signed with a nonce that only the key and the
digest determine, and of the two signatures with one nonce the one with the smaller second half is
given out. `Accepts` is what makes a signature good for a point.
-/

namespace Signet.Secp256k1

structure Signature where
  r : Nat
  s : Nat
  deriving DecidableEq, Repr

/-- The number that a digest stands for: that of its first thirty-two octets. A shorter digest is
filled up with zero octets on the left, which does not change its number. -/
def digestNumber (digest : Octets) : Nat :=
  Octets.toNat (digest.take 32)

/-- The point that a signature leads back to, given what was signed and the public key. -/
def Signature.nonceX? (signature : Signature) (number : Nat) (publicKey : Point) : Option Nat :=
  match Modular.inverse? order signature.s with
  | none => none
  | some inverse =>
    match ((Point.base.multiple (number * inverse % order))).add
        (publicKey.multiple (signature.r * inverse % order)) with
    | .infinity => none
    | .affine x _ => some x

/-- Whether a signature is good for a number under a public key. -/
def Signature.Accepts (signature : Signature) (number : Nat) (publicKey : Point) : Prop :=
  1 ≤ signature.r ∧ signature.r < order ∧ 1 ≤ signature.s ∧ signature.s < order ∧
    (signature.nonceX? number publicKey).map (· % order) = some signature.r

/-- The strict encoding of a signature. -/
def Signature.encode (signature : Signature) : Octets :=
  Der.sequence [Der.integer signature.r, Der.integer signature.s]

/-! ## Keys -/

structure PrivateKey where
  scalar : Nat
  deriving DecidableEq, Repr

/-- The private key of a seed: the hash of the seed, if it is below the order and not zero. -/
def PrivateKey.ofSeed? (seed : String) : Option PrivateKey :=
  let scalar := Octets.toNat (Sha256.hash (Octets.ofText seed))
  if 1 ≤ scalar ∧ scalar < order then some ⟨scalar⟩ else none

def PrivateKey.publicKey (key : PrivateKey) : Point :=
  Point.base.multiple key.scalar

/-- The octets of a point, uncompressed. -/
def Point.encode : Point → Octets
  | .infinity => [0]
  | .affine x y => 4 :: Octets.ofNat 32 x ++ Octets.ofNat 32 y

/-- The encoding of a public key together with the names of its kind and its curve. -/
def publicKeyInfo (point : Point) : Octets :=
  Der.sequence [
    Der.sequence [
      Der.objectIdentifier [0x2a, 0x86, 0x48, 0xce, 0x3d, 0x02, 0x01],
      Der.objectIdentifier [0x2b, 0x81, 0x04, 0x00, 0x0a]],
    Der.bitString point.encode]

def PrivateKey.publicKeyPem (key : PrivateKey) : String :=
  Pem.publicKey (publicKeyInfo key.publicKey)

/-! ## Signing -/

/-- The two values that the choice of nonces keeps. -/
structure NonceState where
  key : Octets
  value : Octets

/-- Mixes octets into the state behind a separating octet. -/
def NonceState.mix (state : NonceState) (separator : UInt8) (octets : Octets) : NonceState :=
  let key := Hmac.sha256 state.key (state.value ++ separator :: octets)
  ⟨key, Hmac.sha256 key state.value⟩

/-- The first candidate that is a nonce, of at most `tries`. -/
def NonceState.nonce? (tries : Nat) (state : NonceState) : Option Nat :=
  match tries with
  | 0 => none
  | tries + 1 =>
    let value := Hmac.sha256 state.key state.value
    let candidate := Octets.toNat value
    if 1 ≤ candidate ∧ candidate < order then some candidate
    else NonceState.nonce? tries ((⟨state.key, value⟩ : NonceState).mix 0 [])

/-- The nonce that a key and the number of a digest determine. -/
def PrivateKey.nonce? (key : PrivateKey) (number : Nat) : Option Nat :=
  let secrets := Octets.ofNat 32 key.scalar ++ Octets.ofNat 32 number
  let blank : NonceState := ⟨List.replicate 32 0, List.replicate 32 1⟩
  ((blank.mix 0 secrets).mix 1 secrets).nonce? 256

/-- The signature of a number with a nonce, unless one of its halves would be zero. -/
def PrivateKey.signWith? (key : PrivateKey) (nonce number : Nat) : Option Signature :=
  match Point.base.multiple nonce, Modular.inverse? order nonce with
  | .affine x _, some inverse =>
    let r := x % order
    let s := inverse * (number + r * key.scalar) % order
    if r = 0 ∨ s = 0 then none
    else some ⟨r, if s ≤ order / 2 then s else order - s⟩
  | _, _ => none

/-- The signature of a digest; digests of less than sixteen octets are refused. -/
def PrivateKey.sign? (key : PrivateKey) (digest : Octets) : Option Signature :=
  if digest.length < 16 then none
  else
    let number := digestNumber digest
    match key.nonce? number with
    | some nonce => key.signWith? nonce number
    | none => none

end Signet.Secp256k1
