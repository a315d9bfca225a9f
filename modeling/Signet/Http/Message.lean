import Signet.Octets
import Signet.SigningError

/-!
# Requests and responses

A request has a method, a target, headers and a body; a response has a status, headers and a body.
Names of headers are lower case in responses and compared without case in requests.
-/

namespace Signet.Http

structure Request where
  method : String
  /-- The target as it stands in the request. -/
  target : String
  headers : List (String × String) := []
  body : Octets := []

namespace Request

def header? (request : Request) (name : String) : Option String :=
  (request.headers.find? fun header => header.1.toLower == name).map (·.2)

end Request

structure Response where
  status : Nat
  headers : List (String × String)
  body : Octets
  deriving DecidableEq, Repr

namespace Response

def ofBody (status : Nat) (mediaType body : String) : Response :=
  ⟨status, [("content-type", mediaType)], Octets.ofText body⟩

def plain (status : Nat) (text : String) : Response :=
  ofBody status "text/plain; charset=utf-8" text

def json (status : Nat) (text : String) : Response :=
  ofBody status "application/json" text

/-- The answer for an error: what the caller is told of it. -/
def ofError (error : SigningError) : Response :=
  plain error.status error.publicMessage

def withLength (response : Response) : Response :=
  { response with
    headers := response.headers ++ [("content-length", toString response.body.length)] }

def withoutBody (response : Response) : Response :=
  { response with body := [] }

end Response

end Signet.Http
