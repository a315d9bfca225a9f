import Signet.Proofs.Messages
import Signet.Proofs.Routing

/-!
# Operations by HTTP

To post what is written for a request comes to the same as to ask for the operation directly: the
signer is called in the same way, the log is the same, and the response delivers the result
(`Http.Delivers`), so that the caller can read back from it what the operation answered. All this
rests on messages being read back, once from the body of the request and once from the body of the
response.
-/

namespace Signet.Http

/-! ## Requests that are posted -/

/-- That a request posts a text for an operation. The text is not too long. -/
structure Request.Posts (request : Request) (operation : Operation) (endpoint : Endpoint)
    (text : String) : Prop where
  method : request.method = "POST"
  path : pathOf request.target = operation.path endpoint.name
  mediaType : request.header? "content-type" = some "application/json"
  body : request.body = Octets.ofText text
  short : request.body.length ≤ Body.limit

/-- The request that posts a text for an operation and says nothing else. -/
def Request.post (operation : Operation) (endpoint : Endpoint) (text : String) : Request where
  method := "POST"
  target := operation.path endpoint.name
  headers := [("Content-Type", "application/json")]
  body := Octets.ofText text

/-- The path of an operation is a path with nothing behind it. -/
theorem pathOf_path (operation : Operation) (endpoint : Endpoint) :
    pathOf (operation.path endpoint.name) = operation.path endpoint.name := by
  cases endpoint
  cases operation with
  | listKeys | publicKey | sign => decide +kernel

theorem Request.posts_post {operation : Operation} {endpoint : Endpoint} {text : String}
    (short : (Octets.ofText text).length ≤ Body.limit) :
    (post operation endpoint text).Posts operation endpoint text where
  method := rfl
  path := pathOf_path operation endpoint
  mediaType := by
    have isName : "Content-Type".toLower = "content-type" := by decide +kernel
    simp [header?, post, isName]
  body := rfl
  short := short

/-- The name of an endpoint, as it is, is a segment that stands for the endpoint. -/
theorem Request.calls_of_path {request : Request} {operation : Operation} {endpoint : Endpoint}
    (isPath : pathOf request.target = operation.path endpoint.name)
    (allowed : request.method ∈ operation.methods) : request.Calls operation endpoint := by
  refine ⟨⟨endpoint.name, isPath, ?_, ?_⟩, allowed⟩
  · cases endpoint
    decide
  · cases endpoint
    decide +kernel

section Posts

variable {α : Type} {request : Request} {operation : Operation} {endpoint : Endpoint}
  {text : String}

/-- What is posted calls the operation, unless this is to list keys. -/
theorem Request.Posts.calls (posts : request.Posts operation endpoint text)
    (takesBody : operation ≠ .listKeys) : request.Calls operation endpoint := by
  refine calls_of_path posts.path ?_
  rw [posts.method]
  cases operation with
  | listKeys => exact absurd rfl takesBody
  | publicKey | sign => exact .head _

theorem Request.Posts.ne_head (posts : request.Posts operation endpoint text) :
    request.method ≠ "HEAD" := by
  rw [posts.method]
  decide

/-- A text that is posted is read as what is read from it. -/
theorem Request.Posts.read (posts : request.Posts operation endpoint text)
    {reader : Json.Reader α} {value : α}
    (reads : Json.readWhole reader (Octets.ofText text) = .ok value) :
    Body.read reader request = .ok value := by
  have isJson : MediaType.isJson "application/json" = true := by decide +kernel
  unfold Body.read
  rw [posts.mediaType, if_neg (by simp [isJson]), if_neg (Nat.not_lt.mpr posts.short), posts.body,
    reads]
  rfl

end Posts

/-! ## Responses -/

/-- That a response delivers the result of an operation: a value as JSON, with the status of
success, or what the caller is told of an error as plain text, with the status of the error. -/
def Delivers {α : Type} (success : Nat) (reader : Json.Reader α) (response : Response) :
    Except SigningError α → Prop
  | .ok value =>
    response.status = success ∧ ("content-type", "application/json") ∈ response.headers ∧
      Json.readWhole reader response.body = .ok value
  | .error error =>
    response.status = error.status ∧
      ("content-type", "text/plain; charset=utf-8") ∈ response.headers ∧
      response.body = Octets.ofText error.publicMessage

/-- What is responded delivers the result if what is written is read back. -/
theorem delivers_respond {α : Type} {operation : Operation} {reader : Json.Reader α}
    {write : α → String} (roundTrips : Json.RoundTrips reader write)
    (result : Except SigningError α) :
    Delivers operation.success reader (respond operation write result).withLength result := by
  cases result with
  | ok value => exact ⟨rfl, .head _, roundTrips.reads value⟩
  | error error => exact ⟨rfl, .head _, rfl⟩

/-- That what comes of a request is what comes of an operation: the same call of the signer, the
same log, and the result as it is delivered. -/
structure Answers {α : Type} (success : Nat) (reader : Json.Reader α) (handled : Served Response)
    (direct : Served (Except SigningError α)) : Prop where
  call? : handled.call? = direct.call?
  log : handled.log = direct.log
  progress : ∃ answer : Except SigningError α → Response,
    (∀ result, Delivers success reader (answer result) result) ∧
      handled.progress = direct.progress.map answer

section Handle

variable {α : Type} {request : Request} {operation : Operation} {endpoint : Endpoint}
  {service : Service} {asking : Asking} {patience : Patience}

/-- What is served by an operation answers it. -/
theorem answers_of_serve {reader : Json.Reader α} {write : α → String}
    {direct : Served (Except SigningError α)} (calls : request.Calls operation endpoint)
    (asked : request.method ≠ "HEAD")
    (isServed : serve service asking operation endpoint request patience =
      direct.map (respond operation write))
    (roundTrips : Json.RoundTrips reader write) :
    Answers operation.success reader (handle service asking request patience) direct := by
  rw [handle_of_calls calls, isServed]
  refine ⟨rfl, rfl, fun result => (respond operation write result).withLength,
    delivers_respond roundTrips, ?_⟩
  show (direct.progress.map (respond operation write)).map request.finish = _
  cases direct.progress with
  | untouched | dropped | pending => rfl
  | ended result =>
    show Progress.ended (request.finish (respond operation write result)) = _
    rw [Request.finish_of_ne_head asked]
    rfl

theorem serve_of_posted_request {signingRequest : SigningRequest}
    (posts : request.Posts .sign endpoint signingRequest.write) :
    serve service asking .sign endpoint request patience =
      (service.sign asking endpoint signingRequest patience).map
        (respond .sign Signature.write) := by
  unfold serve
  dsimp only
  rw [posts.read (SigningRequest.reads_write.reads signingRequest)]

theorem serve_of_posted_key {key? : Option KeyReference}
    (posts : request.Posts .publicKey endpoint (KeyReference.writeOption key?)) :
    serve service asking .publicKey endpoint request patience =
      (service.publicKey asking endpoint key? patience).map
        (respond .publicKey PublicKey.write) := by
  unfold serve
  dsimp only
  rw [posts.read (KeyReference.reads_writeOption.reads key?)]

end Handle

/-- **To post a request comes to the same as to ask directly.** Let the text that is written for a
request be posted for its operation, whatever texts the request holds; or let the keys be asked for.
Then the signer is called and the log is written as they are by the operation, and the response
delivers what the operation answers: its value can be read back from the body, and of an error the
caller is told what it may know. -/
theorem http_refines_operations (service : Service) (asking : Asking) (endpoint : Endpoint)
    (patience : Patience) (request : Request) :
    (∀ signingRequest : SigningRequest,
      request.Posts .sign endpoint signingRequest.write →
      Answers 201 Signature.read (handle service asking request patience)
        (service.sign asking endpoint signingRequest patience)) ∧
    (∀ key? : Option KeyReference,
      request.Posts .publicKey endpoint (KeyReference.writeOption key?) →
      Answers 200 PublicKey.read (handle service asking request patience)
        (service.publicKey asking endpoint key? patience)) ∧
    (request.method = "GET" → pathOf request.target = Operation.listKeys.path endpoint.name →
      Answers 200 KeyListing.read (handle service asking request patience)
        (service.listKeys asking endpoint patience)) := by
  refine ⟨fun signingRequest posts => ?_, fun key? posts => ?_, fun gets isPath => ?_⟩
  · exact answers_of_serve (posts.calls nofun) posts.ne_head (serve_of_posted_request posts)
      Signature.reads_write
  · exact answers_of_serve (posts.calls nofun) posts.ne_head (serve_of_posted_key posts)
      PublicKey.reads_write
  · have asked : request.method ≠ "HEAD" := by
      rw [gets]
      decide
    have allowed : request.method ∈ Operation.listKeys.methods := by
      rw [gets]
      exact .head _
    exact answers_of_serve (Request.calls_of_path isPath allowed) asked rfl KeyListing.reads_write

/-- A key reference is posted, and its key answered. -/
theorem http_refines_operations_for_key1 :
    let service : Service :=
      ⟨Policy.ofEntries [(.blob, ["key1"])], fun _ _ => ⟨[], some 0, .value [80, 69, 77]⟩⟩
    let asking : Asking := ⟨[], .ofRequest 0, false⟩
    let request := Request.post .publicKey .blob (KeyReference.writeOption (some ⟨"key1"⟩))
    Answers 200 PublicKey.read (handle service asking request .toTheEnd)
      (service.publicKey asking .blob (some ⟨"key1"⟩) .toTheEnd) := by
  intro service asking request
  have posts : request.Posts .publicKey .blob (KeyReference.writeOption (some ⟨"key1"⟩)) :=
    Request.posts_post (by decide +kernel)
  exact (http_refines_operations service asking .blob .toTheEnd request).2.1 _ posts

end Signet.Http
