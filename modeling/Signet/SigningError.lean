import Signet.Base64
import Signet.Endpoint
import Signet.Failure

/-!
# Why a call fails

A call fails because of what its caller sent, or because of what happened behind the service.
Callers are told all about the first and nothing about the second.
-/

namespace Signet

/-- What is wrong with the form of a request. -/
inductive RequestFault
  | missingKey
  | missingRequestKey
  | emptyIdentifier
  | malformedBody (reason : String)
  deriving DecidableEq, Repr

def RequestFault.message (fault : RequestFault) (endpoint : Endpoint) : String :=
  match fault with
  | missingKey => s!"keyMeta is empty for {endpoint.name}"
  | missingRequestKey => s!"request.keyMeta is empty for {endpoint.name}"
  | emptyIdentifier => s!"keyMeta.identifier is empty for {endpoint.name}"
  | malformedBody reason => s!"malformed request body for {endpoint.name}: {reason}"

inductive SigningError
  | malformed (fault : RequestFault) (endpoint : Endpoint)
  | unauthorized (identifier : String) (endpoint : Endpoint)
  | undecodable (fault : Base64.DecodingFault)
  | signer (failure : Failure)
  | crash (lastWords : String)
  deriving DecidableEq, Repr

namespace SigningError

/-- The whole error in words, for the log. -/
def message : SigningError → String
  | malformed fault endpoint => fault.message endpoint
  | unauthorized identifier endpoint => s!"cannot use key {identifier} for {endpoint.name}"
  | undecodable fault => fault.message
  | signer failure => s!"signer failure: {failure.text}"
  | crash lastWords => s!"unexpected fault: {lastWords}"

/-- Whether the caller is to blame. -/
def isCallers : SigningError → Bool
  | malformed .. | unauthorized .. | undecodable _ => true
  | signer _ | crash _ => false

def status (error : SigningError) : Nat :=
  if error.isCallers then 400 else 500

/-- What a caller is told about errors that are none of its business. -/
def internalMessage : String :=
  "Internal server error"

/-- What the caller is told about an error. -/
def publicMessage (error : SigningError) : String :=
  if error.isCallers then s!"Bad request: {error.message}" else internalMessage

end SigningError

end Signet
