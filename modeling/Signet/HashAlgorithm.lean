/-!
# Hash algorithms

A request names the hash that made its digest. The names are taken exactly as written, and every
other name means SHA-512.
-/

namespace Signet

/-- The hashes of the SHA-2 family that a digest may come from. -/
inductive HashAlgorithm
  | sha224
  | sha256
  | sha384
  | sha512
  deriving DecidableEq, Repr, Inhabited

namespace HashAlgorithm

/-- The name of a hash, as requests and log records write it. -/
def name : HashAlgorithm → String
  | sha224 => "SHA224"
  | sha256 => "SHA256"
  | sha384 => "SHA384"
  | sha512 => "SHA512"

/-- The hash that a request names; a name that is none of the four means SHA-512. -/
def resolve (name : String) : HashAlgorithm :=
  if name = "SHA224" then sha224
  else if name = "SHA256" then sha256
  else if name = "SHA384" then sha384
  else sha512

/-- How many octets a digest of this hash has. -/
def digestLength : HashAlgorithm → Nat
  | sha224 => 28
  | sha256 => 32
  | sha384 => 48
  | sha512 => 64

/-- A hash is what its own name resolves to. -/
theorem resolve_name (hash : HashAlgorithm) : resolve hash.name = hash := by
  cases hash <;> decide

end HashAlgorithm

end Signet
