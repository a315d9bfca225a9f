import Signet.Message
import Signet.SigningError

/-!
# The form of requests

Before anything else is looked at, a request must name a key, and by a name that is not empty.
-/

namespace Signet

namespace KeyReference

/-- Refuses a key reference without an identifier. -/
def validate (endpoint : Endpoint) (key : KeyReference) : Except SigningError KeyReference :=
  if key.identifier.isEmpty then .error (.malformed .emptyIdentifier endpoint) else .ok key

/-- Refuses a request for a public key that names none. -/
def validateOption (endpoint : Endpoint) : Option KeyReference → Except SigningError KeyReference
  | none => .error (.malformed .missingKey endpoint)
  | some key => key.validate endpoint

end KeyReference

/-- Refuses a signing request that names no key. -/
def SigningRequest.validate (endpoint : Endpoint) (request : SigningRequest) :
    Except SigningError KeyReference :=
  match request.key? with
  | none => .error (.malformed .missingRequestKey endpoint)
  | some key => key.validate endpoint

end Signet
