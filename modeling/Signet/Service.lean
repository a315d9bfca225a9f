import Signet.Call
import Signet.Message
import Signet.Policy
import Signet.Signer
import Signet.Validation

/-!
# The service

The service stands in front of a signer. A request is validated, its key is checked against the
policy, its digest is decoded, and only then is the signer asked, once. The first step that fails
decides the answer, and nothing is tried again.

What a request comes to is settled without the signer or is a question to it: its plan. Plans depend
on the policy and the request alone.
-/

namespace Signet

/-! ## Operations -/

inductive Operation
  | listKeys
  | publicKey
  | sign
  deriving DecidableEq, Repr

namespace Operation

def success : Operation → Nat
  | listKeys | publicKey => 200
  | sign => 201

/-- The name of an operation in access records. -/
def methodName : Endpoint → Operation → String
  | .blob, listKeys => "GetBlobAvailableSigningKeys"
  | .blob, publicKey => "GetBlobSigningKey"
  | .blob, sign => "PostSignBlob"

def call (operation : Operation) (endpoint : Endpoint) (request? : Option RequestFields) : Call :=
  { method := operation.methodName endpoint, success := operation.success, request? }

end Operation

/-! ## Plans -/

/-- What a request comes to: a result, or a question to the signer and what is made of its
answer. -/
inductive Plan (α : Type)
  | settled (result : Except SigningError α)
  | ask (identifier : String) (question : Question) (read : Octets → Except SigningError α)

/-- Who asks the signer, and what the signer has been asked before. -/
structure Asking where
  history : List SignerCall
  token : Token
  isCancelled : Bool

namespace Plan

variable {α : Type}

def call? (asking : Asking) : Plan α → Option SignerCall
  | settled _ => none
  | ask identifier question _ => some ⟨question, identifier, asking.token, asking.isCancelled⟩

def task (signer : Signer) (asking : Asking) : Plan α → Task SigningError α
  | settled result => .done (.ofExcept result)
  | ask identifier question read =>
    (signer asking.history ⟨question, identifier, asking.token, asking.isCancelled⟩).mapEnding
      fun ending => (ending.mapError .signer).bind read

end Plan

namespace Policy

def authorize (policy : Policy) (endpoint : Endpoint) (key : KeyReference) :
    Except SigningError String :=
  if policy.isAuthorized endpoint key.identifier then .ok key.identifier
  else .error (.unauthorized key.identifier endpoint)

/-- The keys that an endpoint may use, as they are answered. -/
def listing (policy : Policy) (endpoint : Endpoint) : KeyListing :=
  ⟨(policy.listKeys endpoint).map KeyReference.mk⟩

end Policy

/-- Reads what a signer answers for a public key. -/
def PublicKey.ofOctets (octets : Octets) : Except SigningError PublicKey :=
  match octets.toText? with
  | some key => .ok ⟨key⟩
  | none =>
    let problem := (octets.utf8Fault?.map (·.message)).getD ""
    .error (.signer { outermost := s!"public key is not UTF-8: {problem}" })

/-- Writes what a signer answers for a digest. -/
def Signature.ofOctets (octets : Octets) : Signature :=
  ⟨Base64.encode octets⟩

namespace Plan

/-- The plan for a request for a public key. -/
def publicKey (policy : Policy) (endpoint : Endpoint) (key? : Option KeyReference) :
    Plan PublicKey :=
  match KeyReference.validateOption endpoint key? with
  | .error error => settled (.error error)
  | .ok key =>
    match policy.authorize endpoint key with
    | .error error => settled (.error error)
    | .ok identifier => ask identifier .publicKey PublicKey.ofOctets

/-- The plan for a signing request. -/
def sign (policy : Policy) (endpoint : Endpoint) (request : SigningRequest) : Plan Signature :=
  match request.validate endpoint with
  | .error error => settled (.error error)
  | .ok key =>
    match policy.authorize endpoint key with
    | .error error => settled (.error error)
    | .ok identifier =>
      match Base64.decode request.digest with
      | .error fault => settled (.error (.undecodable fault))
      | .ok digest =>
        ask identifier (.sign digest (HashAlgorithm.resolve request.hash)) fun signature =>
          .ok (Signature.ofOctets signature)

end Plan

/-! ## The service -/

structure Service where
  policy : Policy
  signer : Signer

/-- What came of a request: which call of the signer it made, the log, and the result. -/
structure Served (α : Type) where
  call? : Option SignerCall
  log : List Event
  progress : Progress α

def Served.map {α β : Type} (convert : α → β) (served : Served α) : Served β :=
  ⟨served.call?, served.log, served.progress.map convert⟩

namespace Service

variable {α : Type}

/-- Carries out a plan as a call. -/
def perform (service : Service) (asking : Asking) (call : Call) (plan : Plan α)
    (patience : Patience) : Served (Except SigningError α) :=
  let observed := call.observe (plan.task service.signer asking) patience
  { call? := if observed.progress.isStarted then plan.call? asking else none
    log := observed.log
    progress := observed.progress }

/-- Answers which keys an endpoint may use. -/
def listKeys (service : Service) (asking : Asking) (endpoint : Endpoint) (patience : Patience) :
    Served (Except SigningError KeyListing) :=
  service.perform asking (Operation.listKeys.call endpoint none)
    (.settled (.ok (service.policy.listing endpoint))) patience

/-- Answers a request for a public key. -/
def publicKey (service : Service) (asking : Asking) (endpoint : Endpoint)
    (key? : Option KeyReference) (patience : Patience) :
    Served (Except SigningError PublicKey) :=
  service.perform asking (Operation.publicKey.call endpoint none)
    (.publicKey service.policy endpoint key?) patience

/-- Answers a signing request. Its digest and the name of its hash are logged as they were sent. -/
def sign (service : Service) (asking : Asking) (endpoint : Endpoint) (request : SigningRequest)
    (patience : Patience) : Served (Except SigningError Signature) :=
  service.perform asking (Operation.sign.call endpoint (some ⟨request.digest, request.hash⟩))
    (.sign service.policy endpoint request) patience

/-- Refuses a request whose body cannot be read. It is logged like any other. -/
def reject (service : Service) (asking : Asking) (endpoint : Endpoint) (operation : Operation)
    (reason : String) (patience : Patience) : Served (Except SigningError α) :=
  service.perform asking (operation.call endpoint none)
    (.settled (.error (.malformed (.malformedBody reason) endpoint))) patience

end Service

end Signet
