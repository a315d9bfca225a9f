import Signet.Http.Body
import Signet.Http.Target
import Signet.Service

/-!
# Routes

A request is routed by its path, then by its method. The routes of the operations name an endpoint
in their path; only when that is known is the body looked at. A request whose body cannot be read is
refused by the service, so that it is logged; other requests that reach no operation leave no trace.
-/

namespace Signet.Http

/-! ## Routes -/

/-- What a path stands for. The endpoint of an operation is still as it stands in the path. -/
inductive Route
  | healthcheck
  | operation (operation : Operation) (endpoint : String)
  deriving DecidableEq, Repr

namespace Route

def ofPath? (path : String) : Option Route :=
  match segments? path with
  | some ["healthcheck"] => some healthcheck
  | some ["v1", "sig", endpoint, "keys"] => some (operation .listKeys endpoint)
  | some ["v1", "sig", endpoint, "key"] => some (operation .publicKey endpoint)
  | some ["v1", "sig", endpoint, "sign"] => some (operation .sign endpoint)
  | _ => none

def methods : Route → List String
  | healthcheck | operation .listKeys _ => ["GET", "HEAD"]
  | operation .publicKey _ | operation .sign _ => ["POST"]

end Route

def notFound (path : String) : Response :=
  let response : Response := ⟨404, [], []⟩
  if path.startsWith "/" then response else response.withLength

/-- The answer where there is a route but not for the method. -/
def methodNotAllowed (route : Route) : Response :=
  Response.withLength ⟨405, [("allow", ",".intercalate route.methods)], []⟩

/-! ## Endpoints -/

/-- The endpoint that a segment of a path stands for, or why there is none. -/
def readEndpoint (segment : String) : Except String Endpoint :=
  match decodeSegment? segment with
  | none => .error "Invalid URL: Invalid UTF-8 in `endpoint`"
  | some name =>
    match Endpoint.ofName? name with
    | some endpoint => .ok endpoint
    | none =>
      let cause := Json.Cause.unknownVariant name (Endpoint.all.map Endpoint.name)
      .error s!"Invalid URL: {cause.message}"

/-! ## Operations -/

def respond {α : Type} (operation : Operation) (write : α → String) :
    Except SigningError α → Response
  | .ok result => .json operation.success (write result)
  | .error error => .ofError error

def serve (service : Service) (asking : Asking) (operation : Operation) (endpoint : Endpoint)
    (request : Request) (patience : Patience) : Served Response :=
  match operation with
  | .listKeys =>
    (service.listKeys asking endpoint patience).map (respond .listKeys KeyListing.write)
  | .publicKey =>
    match Body.read KeyReference.readOption request with
    | .ok key? =>
      (service.publicKey asking endpoint key? patience).map (respond .publicKey PublicKey.write)
    | .error refusal =>
      (service.reject asking endpoint .publicKey refusal.reason patience).map
        (respond .publicKey PublicKey.write)
  | .sign =>
    match Body.read SigningRequest.read request with
    | .ok signingRequest =>
      (service.sign asking endpoint signingRequest patience).map (respond .sign Signature.write)
    | .error refusal =>
      (service.reject asking endpoint .sign refusal.reason patience).map
        (respond .sign Signature.write)

/-! ## Requests -/

/-- What comes of a request that is answered without the service. -/
def answerAtOnce (response : Response) : Patience → Served Response
  | .polls 0 => ⟨none, [], .untouched⟩
  | _ => ⟨none, [], .ended response⟩

/-- Answers a request. The token that the signer is given belongs to the request alone. -/
def handle (service : Service) (asking : Asking) (request : Request) (patience : Patience) :
    Served Response :=
  let path := pathOf request.target
  match Route.ofPath? path with
  | none => answerAtOnce (notFound path) patience
  | some route =>
    if !route.methods.contains request.method then
      answerAtOnce (methodNotAllowed route) patience
    else
      let served := match route with
        | .healthcheck => answerAtOnce (.plain 200 "Ok") patience
        | .operation operation segment =>
          match readEndpoint segment with
          | .ok endpoint => serve service asking operation endpoint request patience
          | .error problem => answerAtOnce (.plain 400 problem) patience
      served.map fun response =>
        if request.method = "HEAD" then response.withLength.withoutBody else response.withLength

end Signet.Http
