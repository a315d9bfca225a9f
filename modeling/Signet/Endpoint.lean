import Signet.Json.Reading
import Signet.Json.Writing

/-!
# Endpoints

An endpoint is a purpose that digests are signed for. Each has keys of its own that it may use.
-/

namespace Signet

/-- A purpose that digests are signed for. -/
inductive Endpoint
  | blob
  deriving DecidableEq, Repr

namespace Endpoint

/-- The name of an endpoint in requests, configurations and error texts. -/
def name : Endpoint → String
  | blob => "blob"

def all : List Endpoint :=
  [blob]

def named : List (String × Endpoint) :=
  all.map fun endpoint => (endpoint.name, endpoint)

def ofName? (name : String) : Option Endpoint :=
  named.lookup name

def read : Json.Reader Endpoint :=
  Json.readChoice named

def write (endpoint : Endpoint) : String :=
  Json.writeText endpoint.name

end Endpoint

end Signet
