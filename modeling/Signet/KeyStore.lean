import Signet.DigestSigner
import Signet.Signer

/-!
# Key stores

A key store holds keys by their identifiers. A key cannot be replaced: the first insertion under an
identifier is the only one. A key store is a signer whose answers do not depend on earlier calls.
-/

namespace Signet

structure KeyStore where
  keys : List (String × DigestSigner)

namespace KeyStore

def empty : KeyStore :=
  ⟨[]⟩

def get? (store : KeyStore) (identifier : String) : Option DigestSigner :=
  store.keys.lookup identifier

def contains (store : KeyStore) (identifier : String) : Bool :=
  (store.get? identifier).isSome

def size (store : KeyStore) : Nat :=
  store.keys.length

def isEmpty (store : KeyStore) : Bool :=
  store.keys.isEmpty

/-- The failure of an insertion under an identifier that is taken. -/
def duplicate (identifier : String) : Failure :=
  { outermost := s!"duplicate key identifier {Text.quote identifier}" }

/-- Adds a key under an identifier that is not taken. -/
def insert (store : KeyStore) (identifier : String) (key : DigestSigner) :
    Except Failure KeyStore :=
  if store.contains identifier then .error (duplicate identifier)
  else .ok ⟨(identifier, key) :: store.keys⟩

def find (store : KeyStore) (identifier : String) : Except Failure DigestSigner :=
  match store.get? identifier with
  | some key => .ok key
  | none => .error { outermost := s!"no key loaded for identifier {Text.quote identifier}" }

/-- How the crash of work in another thread is reported by that thread. Which of the many tasks it
was is of no consequence, and their numbers are not kept. -/
def crashText (crash : Crash) : String :=
  match crash.lastWords with
  | some words => s!"task N panicked with message {Text.quote words}"
  | none => "task N panicked"

/-- How the ending of a key's work in another thread is reported. -/
def signEnding (identifier : String) : Ending Failure Octets → Ending Failure Octets
  | .value signature => .value signature
  | .failed failure =>
    .failed (failure.within s!"signing with key {Text.quote identifier}")
  | .crashed crash =>
    .failed (Failure.within s!"signing task for key {Text.quote identifier} did not finish"
      { outermost := crashText crash })

/-- Signs a digest. The key works in another thread, so the task is pending once. -/
def sign (store : KeyStore) (isCancelled : Bool) (digest : Octets) (hash : HashAlgorithm)
    (identifier : String) : Task Failure Octets :=
  if isCancelled then
    .done (.failed
      { outermost := s!"signing with {Text.quote identifier} cancelled by caller" })
  else
    match store.find identifier with
    | .error failure => .done (.failed failure)
    | .ok key =>
      { log := [.signingDigest identifier key.algorithm hash]
        waits := some 1
        ending := signEnding identifier (key.sign digest hash) }

/-- Looks up a public key, as the octets of its text. -/
def publicKey (store : KeyStore) (isCancelled : Bool) (identifier : String) :
    Task Failure Octets :=
  if isCancelled then
    .done (.failed
      { outermost := s!"public key lookup for {Text.quote identifier} cancelled by caller" })
  else
    match store.find identifier with
    | .error failure => .done (.failed failure)
    | .ok key => .done (key.publicKeyPem.map Octets.ofText)

def signer (store : KeyStore) : Signer := fun _ call =>
  match call.question with
  | .sign digest hash => store.sign call.isCancelled digest hash call.identifier
  | .publicKey => store.publicKey call.isCancelled call.identifier

end KeyStore

end Signet
