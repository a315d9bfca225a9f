import Signet.Failure
import Signet.Octets
import Signet.Task

/-!
# Signers

A signer holds the keys. The service asks it to sign a digest or for a public key; what it answers
may depend on all questions it has been asked before. Each question carries a token through which
the asker can let it know that the answer is no longer wanted.
-/

namespace Signet

/-- A cancellation token, named by who made it: a caller, or the handler of a request. -/
inductive Token
  | ofCaller (number : Nat)
  | ofRequest (number : Nat)
  deriving DecidableEq, Repr

inductive Question
  | sign (digest : Octets) (hash : HashAlgorithm)
  | publicKey
  deriving DecidableEq, Repr

structure SignerCall where
  question : Question
  identifier : String
  token : Token
  /-- Whether the token was cancelled at the time of the call. -/
  isCancelled : Bool
  deriving DecidableEq, Repr

/-- A signer, as its answer to a call after all earlier calls, oldest first. -/
def Signer := (history : List SignerCall) → SignerCall → Task Failure Octets

end Signet
