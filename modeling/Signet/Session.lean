import Signet.Http.Router

/-!
# Sessions

A session is a sequence of steps: operations asked for directly or as requests, each with some
patience, and cancellations by callers. Between the steps it remembers what the signer has been
asked, which tokens are cancelled, and how many requests there were. Each request has a token of its
own, which is cancelled when its handler has ended or was dropped; the tokens of callers are
cancelled by callers alone.
-/

namespace Signet

inductive Step
  | listKeys (endpoint : Endpoint)
  | publicKey (endpoint : Endpoint) (key? : Option KeyReference) (token : Nat)
  | sign (endpoint : Endpoint) (request : SigningRequest) (token : Nat)
  | reject (endpoint : Endpoint) (operation : Operation) (reason : String)
  | request (request : Http.Request)
  | cancel (token : Nat)

inductive Answer
  | keys (listing : KeyListing)
  | publicKey (key : PublicKey)
  | signature (signature : Signature)
  | failed (error : SigningError)
  | response (response : Http.Response)
  | cancelled

def Answer.ofResult {α : Type} (answer : α → Answer) : Except SigningError α → Answer
  | .ok result => answer result
  | .error error => .failed error

/-- What a session remembers. -/
structure Session where
  /-- What the signer has been asked, oldest first. -/
  history : List SignerCall := []
  cancelled : List Token := []
  requests : Nat := 0

namespace Session

def isCancelled (session : Session) (token : Token) : Bool :=
  session.cancelled.contains token

/-- Who asks the signer when a token is handed to it. -/
def asking (session : Session) (token : Token) : Asking :=
  ⟨session.history, token, session.isCancelled token⟩

def remember (session : Session) {α : Type} (served : Served α) : Session :=
  { session with history := session.history ++ served.call?.toList }

def cancel (session : Session) (token : Token) : Session :=
  { session with cancelled := token :: session.cancelled }

/-- The token of the next request. -/
def requestToken (session : Session) : Token :=
  .ofRequest session.requests

/-- The session after a request: its token is cancelled once it is over. -/
def afterRequest (session : Session) (served : Served Http.Response) : Session :=
  let after := { session.remember served with requests := session.requests + 1 }
  if served.progress.isOver then after.cancel session.requestToken else after

def step (service : Service) (session : Session) (step : Step) (patience : Patience) :
    Served Answer × Session :=
  match step with
  | .listKeys endpoint =>
    let served := service.listKeys (session.asking (.ofCaller 0)) endpoint patience
    (served.map (.ofResult .keys), session.remember served)
  | .publicKey endpoint key? token =>
    let served := service.publicKey (session.asking (.ofCaller token)) endpoint key? patience
    (served.map (.ofResult .publicKey), session.remember served)
  | .sign endpoint request token =>
    let served := service.sign (session.asking (.ofCaller token)) endpoint request patience
    (served.map (.ofResult .signature), session.remember served)
  | .reject endpoint operation reason =>
    let served : Served (Except SigningError Signature) :=
      service.reject (session.asking (.ofCaller 0)) endpoint operation reason patience
    (served.map (.ofResult .signature), session.remember served)
  | .request request =>
    let served := Http.handle service (session.asking session.requestToken) request patience
    (served.map .response, session.afterRequest served)
  | .cancel token => (⟨none, [], .ended .cancelled⟩, session.cancel (.ofCaller token))

/-- What came of each of a list of steps, with the session after it. -/
def trace (service : Service) :
    Session → List (Step × Patience) → List (Served Answer × Session)
  | _, [] => []
  | session, (next, patience) :: steps =>
    let (served, session) := session.step service next patience
    (served, session) :: trace service session steps

end Session

end Signet
