import Signet.Proofs.Blame
import Signet.Proofs.Paths

/-!
# What comes of each request

A request either calls an operation for an endpoint (`Http.Request.Calls`) or bypasses the service
(`Http.Request.Bypasses`), and which of the two it does is seen from its path and its method. What
bypasses the service is answered at once, with a status that depends on the request alone. What
calls an operation is carried out as a call with some plan (`Http.exists_serve_eq_perform`), so that
it is recorded, whatever its body is; the answer has the status of the record, since both are made
from one result.

`Http.handle_toTheEnd_of_calls` says so for calls that run to their end, and
`Http.request_classification` puts it together for all requests.
-/

namespace Signet

/-- The methods by which an operation is asked for. -/
def Operation.methods : Operation → List String
  | listKeys => ["GET", "HEAD"]
  | publicKey | sign => ["POST"]

theorem Endpoint.ofName?_eq_some_iff {name : String} {endpoint : Endpoint} :
    ofName? name = some endpoint ↔ name = endpoint.name := by
  cases endpoint
  show List.lookup name [("blob", blob)] = some blob ↔ name = "blob"
  rw [List.lookup_cons]
  by_cases isBlob : name = "blob"
  · simp [isBlob]
  · rw [beq_false_of_ne isBlob]
    simp [isBlob]

namespace Http

theorem readEndpoint_eq_ok_iff {segment : String} {endpoint : Endpoint} :
    readEndpoint segment = .ok endpoint ↔ decodeSegment? segment = some endpoint.name := by
  unfold readEndpoint
  cases decodeSegment? segment with
  | none => simp
  | some name =>
    rw [Option.some.injEq, ← Endpoint.ofName?_eq_some_iff]
    dsimp only
    cases Endpoint.ofName? name with
    | none => simp
    | some found => simp

/-! ## Classes of requests -/

namespace Request

/-- That a request calls an operation for an endpoint. Its path names the endpoint by a segment that
decodes to its name. -/
structure Calls (request : Request) (operation : Operation) (endpoint : Endpoint) : Prop where
  path : ∃ segment, pathOf request.target = operation.path segment ∧ '/' ∉ segment.toList ∧
    decodeSegment? segment = some endpoint.name
  method : request.method ∈ operation.methods

/-- That a request bypasses the service, and with which status it is answered. -/
inductive Bypasses (request : Request) : (status : Nat) → Prop
  | healthcheck : pathOf request.target = "/healthcheck" → request.method ∈ ["GET", "HEAD"] →
    Bypasses request 200
  | noEndpoint {operation : Operation} {segment : String} :
    pathOf request.target = operation.path segment → '/' ∉ segment.toList →
    (∀ endpoint : Endpoint, decodeSegment? segment ≠ some endpoint.name) →
    request.method ∈ operation.methods → Bypasses request 400
  | noRoute : pathOf request.target ≠ "/healthcheck" →
    (∀ (operation : Operation) (segment : String), '/' ∉ segment.toList →
      pathOf request.target ≠ operation.path segment) →
    Bypasses request 404
  | noHealthcheckMethod : pathOf request.target = "/healthcheck" →
    request.method ∉ ["GET", "HEAD"] → Bypasses request 405
  | noOperationMethod {operation : Operation} {segment : String} :
    pathOf request.target = operation.path segment → '/' ∉ segment.toList →
    request.method ∉ operation.methods → Bypasses request 405

theorem calls_or_bypasses (request : Request) :
    (∃ operation endpoint, request.Calls operation endpoint) ∨
      ∃ status, request.Bypasses status := by
  cases isRoute : Route.ofPath? (pathOf request.target) with
  | none =>
    refine Or.inr ⟨404, .noRoute (fun isPath => ?_) fun operation segment isWhole isPath => ?_⟩
    · rw [Route.ofPath?_eq_healthcheck_iff.mpr isPath] at isRoute
      cases isRoute
    · rw [Route.ofPath?_eq_operation_iff.mpr ⟨isPath, isWhole⟩] at isRoute
      cases isRoute
  | some route =>
    cases route with
    | healthcheck =>
      have isPath := Route.ofPath?_eq_healthcheck_iff.mp isRoute
      by_cases allowed : request.method ∈ ["GET", "HEAD"]
      · exact Or.inr ⟨200, .healthcheck isPath allowed⟩
      · exact Or.inr ⟨405, .noHealthcheckMethod isPath allowed⟩
    | operation operation segment =>
      obtain ⟨isPath, isWhole⟩ := Route.ofPath?_eq_operation_iff.mp isRoute
      by_cases allowed : request.method ∈ operation.methods
      · by_cases named : ∃ endpoint : Endpoint, decodeSegment? segment = some endpoint.name
        · obtain ⟨endpoint, named⟩ := named
          exact Or.inl ⟨operation, endpoint, ⟨segment, isPath, isWhole, named⟩, allowed⟩
        · have unnamed (endpoint : Endpoint) : decodeSegment? segment ≠ some endpoint.name :=
            fun decoded => named ⟨endpoint, decoded⟩
          exact Or.inr ⟨400, .noEndpoint isPath isWhole unnamed allowed⟩
      · exact Or.inr ⟨405, .noOperationMethod isPath isWhole allowed⟩

/-- The last touch to an answer: its length is told, and without being asked for its body it has
none. -/
def finish (request : Request) (response : Response) : Response :=
  if request.method = "HEAD" then response.withLength.withoutBody else response.withLength

theorem status_finish (request : Request) (response : Response) :
    (request.finish response).status = response.status := by
  unfold finish
  split
  · rfl
  · rfl

theorem finish_of_ne_head {request : Request} (asked : request.method ≠ "HEAD")
    (response : Response) : request.finish response = response.withLength :=
  if_neg asked

/-- What is posted is asked for with its body. -/
theorem Calls.finish {request : Request} {operation : Operation} {endpoint : Endpoint}
    (calls : request.Calls operation endpoint) (posts : operation ≠ .listKeys)
    (response : Response) : request.finish response = response.withLength := by
  have method := calls.method
  cases operation with
  | listKeys => exact absurd rfl posts
  | publicKey | sign =>
    have posted : request.method = "POST" := List.mem_singleton.mp method
    refine finish_of_ne_head ?_ response
    rw [posted]
    decide

end Request

/-! ## Requests that bypass the service -/

theorem methods_operation (operation : Operation) (segment : String) :
    (Route.operation operation segment).methods = operation.methods := by
  cases operation with
  | listKeys | publicKey | sign => rfl

theorem map_answerAtOnce (convert : Response → Response) (response : Response)
    (patience : Patience) :
    (answerAtOnce response patience).map convert = answerAtOnce (convert response) patience := by
  rcases patience with _ | _ | polls
  · rfl
  · rfl
  · rfl

section Handle

variable {request : Request} {service : Service} {asking : Asking} {patience : Patience}
  {operation : Operation} {segment : String}

theorem handle_of_noRoute (isRoute : Route.ofPath? (pathOf request.target) = none) :
    handle service asking request patience =
      answerAtOnce (notFound (pathOf request.target)) patience := by
  unfold handle
  dsimp only
  rw [isRoute]

theorem handle_of_noMethod {route : Route}
    (isRoute : Route.ofPath? (pathOf request.target) = some route)
    (notAllowed : request.method ∉ route.methods) :
    handle service asking request patience = answerAtOnce (methodNotAllowed route) patience := by
  unfold handle
  dsimp only
  rw [isRoute]
  have isMissing : route.methods.contains request.method = false := by
    simpa using notAllowed
  dsimp only
  rw [isMissing]
  rfl

theorem handle_of_healthcheck (isRoute : Route.ofPath? (pathOf request.target) = some .healthcheck)
    (allowed : request.method ∈ Route.healthcheck.methods) :
    handle service asking request patience =
      answerAtOnce (request.finish (.plain 200 "Ok")) patience := by
  unfold handle
  dsimp only
  rw [isRoute]
  dsimp only
  rw [List.contains_iff_mem.mpr allowed, ← map_answerAtOnce]
  rfl

theorem handle_of_operation
    (isRoute : Route.ofPath? (pathOf request.target) = some (.operation operation segment))
    (allowed : request.method ∈ operation.methods) :
    handle service asking request patience =
      (match readEndpoint segment with
        | .ok endpoint => serve service asking operation endpoint request patience
        | .error problem => answerAtOnce (.plain 400 problem) patience).map request.finish := by
  unfold handle
  dsimp only
  rw [isRoute]
  rw [← methods_operation operation segment] at allowed
  dsimp only
  rw [List.contains_iff_mem.mpr allowed]
  rfl

/-- What calls an operation is served by it. -/
theorem handle_of_calls {endpoint : Endpoint} (calls : request.Calls operation endpoint) :
    handle service asking request patience =
      (serve service asking operation endpoint request patience).map request.finish := by
  obtain ⟨segment, isPath, isWhole, named⟩ := calls.path
  rw [handle_of_operation (Route.ofPath?_eq_operation_iff.mpr ⟨isPath, isWhole⟩) calls.method,
    readEndpoint_eq_ok_iff.mpr named]

end Handle

/-- What bypasses the service is answered at once, and always in the same way. -/
theorem handle_of_bypasses {request : Request} {status : Nat}
    (bypasses : request.Bypasses status) :
    ∃ response : Response, response.status = status ∧
      ∀ (service : Service) (asking : Asking) (patience : Patience),
        handle service asking request patience = answerAtOnce response patience := by
  cases bypasses with
  | healthcheck isPath allowed =>
    have isRoute := Route.ofPath?_eq_healthcheck_iff.mpr isPath
    exact ⟨_, request.status_finish _, fun _ _ _ => handle_of_healthcheck isRoute allowed⟩
  | noEndpoint isPath isWhole unnamed allowed =>
    rename_i operation segment
    have isRoute := Route.ofPath?_eq_operation_iff.mpr ⟨isPath, isWhole⟩
    cases named : readEndpoint segment with
    | ok endpoint => exact absurd (readEndpoint_eq_ok_iff.mp named) (unnamed endpoint)
    | error problem =>
      refine ⟨request.finish (.plain 400 problem), request.status_finish _, fun _ _ _ => ?_⟩
      rw [handle_of_operation isRoute allowed, named, ← map_answerAtOnce]
  | noRoute isNoHealthcheck isNoOperation =>
    have isNoRoute : Route.ofPath? (pathOf request.target) = none := by
      cases isRoute : Route.ofPath? (pathOf request.target) with
      | none => rfl
      | some route =>
        cases route with
        | healthcheck =>
          exact absurd (Route.ofPath?_eq_healthcheck_iff.mp isRoute) isNoHealthcheck
        | operation operation segment =>
          obtain ⟨isPath, isWhole⟩ := Route.ofPath?_eq_operation_iff.mp isRoute
          exact absurd isPath (isNoOperation operation segment isWhole)
    refine ⟨notFound (pathOf request.target), ?_, fun _ _ _ => handle_of_noRoute isNoRoute⟩
    unfold notFound
    dsimp only
    split
    · rfl
    · rfl
  | noHealthcheckMethod isPath notAllowed =>
    have isRoute := Route.ofPath?_eq_healthcheck_iff.mpr isPath
    exact ⟨_, rfl, fun _ _ _ => handle_of_noMethod isRoute notAllowed⟩
  | noOperationMethod isPath isWhole notAllowed =>
    rename_i operation segment
    have isRoute := Route.ofPath?_eq_operation_iff.mpr ⟨isPath, isWhole⟩
    rw [← methods_operation operation segment] at notAllowed
    exact ⟨_, rfl, fun _ _ _ => handle_of_noMethod isRoute notAllowed⟩

end Http

/-! ## Calls that run to their end -/

/-- A plan is carried out to its end if the signer ends when it is called. -/
theorem Service.perform_toTheEnd {α : Type} (service : Service) (asking : Asking) (call : Call)
    {plan : Plan α} (ends : ∀ signerCall ∈ plan.call? asking,
      (service.signer asking.history signerCall).waits ≠ none) :
    service.perform asking call plan .toTheEnd =
      ⟨plan.call? asking,
        service.signer.logOf asking.history (plan.call? asking) ++
          [call.recordOf (plan.result service.signer asking)],
        .ended (plan.result service.signer asking)⟩ := by
  have taskEnds : ∃ waits, (plan.task service.signer asking).waits = some waits := by
    cases plan with
    | settled result => exact ⟨0, rfl⟩
    | ask identifier question read => exact Option.ne_none_iff_exists'.mp (ends _ rfl)
  obtain ⟨waits, taskEnds⟩ := taskEnds
  unfold perform
  rw [call.observe_toTheEnd_of_ends _ taskEnds, plan.log_task]
  rfl

theorem Progress.exists_of_map_eq_ended {α β : Type} {convert : α → β}
    {progress : Progress α} {result : β} (ended : progress.map convert = .ended result) :
    ∃ before, progress = .ended before := by
  cases progress with
  | ended before => exact ⟨before, rfl⟩
  | untouched | dropped | pending => cases ended

/-- What has come to its end had no call of the signer, or one that has ended. -/
theorem Service.ends_of_perform {α : Type} (service : Service) (asking : Asking) (call : Call)
    {plan : Plan α} {result : Except SigningError α}
    (ended : (service.perform asking call plan .toTheEnd).progress = .ended result) :
    ∀ signerCall ∈ plan.call? asking,
      (service.signer asking.history signerCall).waits ≠ none := by
  rw [perform_progress] at ended
  cases plan with
  | settled _ => exact fun _ asked => nomatch asked
  | ask identifier question read =>
    rintro _ ⟨⟩ endless
    have taskEndless :
        ((Plan.ask identifier question read).task service.signer asking).waits = none := endless
    unfold Task.outcome at ended
    rw [taskEndless] at ended
    cases ended

/-- A log that goes on with an access record has one more. -/
theorem countAccess_append_of_isRecordOf {own : List Event} {record : Event} {call : Call}
    {status : Nat} {error : String} (recorded : record.IsRecordOf call status error) :
    countAccess (own ++ [record]) = countAccess own + 1 := by
  have isAccess : (record.target == "signing_service::access") = true := by
    rw [recorded.target]
    exact beq_self_eq_true _
  rw [countAccess, List.countP_append, List.countP_singleton, if_pos isAccess]
  rfl

namespace Http

section Answers

variable {α : Type} (operation : Operation)

theorem status_respond (write : α → String) (result : Except SigningError α) :
    (respond operation write result).status ∈ [operation.success, 400, 500] := by
  cases result with
  | ok value => exact .head _
  | error error =>
    show error.status ∈ _
    cases callers : error.isCallers with
    | true =>
      rw [SigningError.status_of_callers callers]
      exact .tail _ (.head _)
    | false =>
      rw [SigningError.status_of_not_callers callers]
      exact .tail _ (.tail _ (.head _))

/-- The record of a result has the status of the answer that is made from the result. -/
theorem recordOf_isRecordOf_respond (endpoint : Endpoint) (request? : Option RequestFields)
    (write : α → String) (result : Except SigningError α) :
    ∃ error, ((operation.call endpoint request?).recordOf result).IsRecordOf
      (operation.call endpoint request?) (respond operation write result).status error := by
  cases result with
  | ok value => exact ⟨"", Call.record_isRecordOf _ _ _⟩
  | error error => exact ⟨error.message, Call.record_isRecordOf _ _ _⟩

/-- Whatever its body is, what calls an operation is carried out as a call with some plan. -/
theorem exists_serve_eq_perform (policy : Policy) (endpoint : Endpoint) (request : Request) :
    ∃ (α : Type) (request? : Option RequestFields) (plan : Plan α) (write : α → String),
      policy.Plans plan ∧ ∀ (signer : Signer) (asking : Asking) (patience : Patience),
        serve ⟨policy, signer⟩ asking operation endpoint request patience =
          (Service.perform ⟨policy, signer⟩ asking (operation.call endpoint request?) plan
            patience).map (respond operation write) := by
  unfold serve
  cases operation with
  | listKeys =>
    exact ⟨KeyListing, none, .settled (.ok (policy.listing endpoint)), KeyListing.write,
      .listing endpoint, fun _ _ _ => rfl⟩
  | publicKey =>
    cases Body.read KeyReference.readOption request with
    | ok key? =>
      exact ⟨PublicKey, none, .publicKey policy endpoint key?, PublicKey.write,
        .publicKey endpoint key?, fun _ _ _ => rfl⟩
    | error refusal =>
      exact ⟨PublicKey, none,
        .settled (.error (.malformed (.malformedBody refusal.reason) endpoint)),
        PublicKey.write, .refusal endpoint refusal.reason, fun _ _ _ => rfl⟩
  | sign =>
    cases Body.read SigningRequest.read request with
    | ok signingRequest =>
      exact ⟨Signature, some ⟨signingRequest.digest, signingRequest.hash⟩,
        .sign policy endpoint signingRequest, Signature.write,
        .sign endpoint signingRequest, fun _ _ _ => rfl⟩
    | error refusal =>
      exact ⟨Signature, none,
        .settled (.error (.malformed (.malformedBody refusal.reason) endpoint)),
        Signature.write, .refusal endpoint refusal.reason, fun _ _ _ => rfl⟩

/-- What calls an operation has an honest plan. It makes the call of its plan, and comes to its end
if that does. It is then recorded and answered with what its plan comes to. -/
theorem handle_toTheEnd_of_calls {operation : Operation} {endpoint : Endpoint} {request : Request}
    (calls : request.Calls operation endpoint) (policy : Policy) (asking : Asking) :
    ∃ (α : Type) (request? : Option RequestFields) (plan : Plan α) (write : α → String),
      plan.IsHonest ∧ ∀ signer : Signer,
        (handle ⟨policy, signer⟩ asking request .toTheEnd).call? = plan.call? asking ∧
        (∀ response, (handle ⟨policy, signer⟩ asking request .toTheEnd).progress =
          .ended response →
          ∀ call ∈ plan.call? asking, (signer asking.history call).waits ≠ none) ∧
        ((∀ call ∈ plan.call? asking, (signer asking.history call).waits ≠ none) →
          handle ⟨policy, signer⟩ asking request .toTheEnd =
            ⟨plan.call? asking,
              signer.logOf asking.history (plan.call? asking) ++
                [(operation.call endpoint request?).recordOf (plan.result signer asking)],
              .ended
                (request.finish (respond operation write (plan.result signer asking)))⟩) := by
  obtain ⟨α, request?, plan, write, plans, isPerformed⟩ :=
    exists_serve_eq_perform operation policy endpoint request
  refine ⟨α, request?, plan, write, plans.isHonest,
    fun signer => ⟨?_, fun response ended => ?_, fun ends => ?_⟩⟩
  · rw [handle_of_calls calls, isPerformed]
    exact Service.perform_call?_of_polled ⟨policy, signer⟩ asking _ plan nofun
  · rw [handle_of_calls calls, isPerformed] at ended
    obtain ⟨_, ended⟩ := Progress.exists_of_map_eq_ended ended
    obtain ⟨_, ended⟩ := Progress.exists_of_map_eq_ended ended
    exact Service.ends_of_perform ⟨policy, signer⟩ asking _ ended
  · rw [handle_of_calls calls, isPerformed,
      Service.perform_toTheEnd ⟨policy, signer⟩ asking _ ends]
    rfl

end Answers

/-! ## Bodies that cannot be read -/

/-- Why the body of a request cannot be read for an operation, if it has to be and cannot. -/
def Request.refusal? (request : Request) : Operation → Option Body.Refusal
  | .listKeys => none
  | .publicKey =>
    match Body.read KeyReference.readOption request with
    | .ok _ => none
    | .error refusal => some refusal
  | .sign =>
    match Body.read SigningRequest.read request with
    | .ok _ => none
    | .error refusal => some refusal

section Refusals

variable {request : Request} {operation : Operation} {refusal : Body.Refusal}

theorem Request.ne_listKeys_of_refused (refused : request.refusal? operation = some refusal) :
    operation ≠ .listKeys := by
  rintro rfl
  cases refused

theorem serve_of_refused (refused : request.refusal? operation = some refusal)
    (service : Service) (asking : Asking) (endpoint : Endpoint) :
    let error : SigningError := .malformed (.malformedBody refusal.reason) endpoint
    serve service asking operation endpoint request .toTheEnd =
      ⟨none, [(operation.call endpoint none).record 400 error.message],
        .ended (.plain 400 error.publicMessage)⟩ := by
  unfold serve
  unfold Request.refusal? at refused
  cases operation with
  | listKeys => cases refused
  | publicKey =>
    dsimp only at refused ⊢
    cases body : Body.read KeyReference.readOption request with
    | ok key? =>
      rw [body] at refused
      cases refused
    | error found =>
      rw [body] at refused
      cases refused
      rfl
  | sign =>
    dsimp only at refused ⊢
    cases body : Body.read SigningRequest.read request with
    | ok signingRequest =>
      rw [body] at refused
      cases refused
    | error found =>
      rw [body] at refused
      cases refused
      rfl

/-- A request whose body cannot be read is told why, and recorded without anything that was in its
body. -/
theorem handle_of_refused {endpoint : Endpoint} (calls : request.Calls operation endpoint)
    (refused : request.refusal? operation = some refusal) (service : Service)
    (asking : Asking) :
    let problem := s!"malformed request body for {endpoint.name}: {refusal.reason}"
    ∃ record : Event,
      handle service asking request .toTheEnd =
        ⟨none, [record], .ended (Response.plain 400 s!"Bad request: {problem}").withLength⟩ ∧
      record.IsRecordOf (operation.call endpoint none) 400 problem := by
  intro problem
  have isServed := serve_of_refused refused service asking endpoint
  have posts := Request.ne_listKeys_of_refused refused
  refine ⟨_, ?_, Call.record_isRecordOf _ 400 problem⟩
  rw [handle_of_calls calls, isServed]
  show (⟨none, _, .ended (request.finish _)⟩ : Served Response) = _
  rw [calls.finish posts]
  rfl

end Refusals

/-! ## The classification -/

/-- What calls an operation and runs to its end is recorded once, and the record names the operation
and has the status of the answer. -/
theorem recorded_of_calls {service : Service} {asking : Asking} {request : Request}
    {operation : Operation} {endpoint : Endpoint} (calls : request.Calls operation endpoint)
    (ends : ∀ call ∈ (handle service asking request .toTheEnd).call?,
      (service.signer asking.history call).waits ≠ none) :
    let served := handle service asking request .toTheEnd
    let own := service.signer.logOf asking.history served.call?
    ∃ (response : Response) (record : Event) (request? : Option RequestFields) (error : String),
      served.progress = .ended response ∧
      served.log = own ++ [record] ∧ countAccess served.log = countAccess own + 1 ∧
      record.IsRecordOf (operation.call endpoint request?) response.status error ∧
      response.status ∈ [operation.success, 400, 500] := by
  intro served own
  obtain ⟨α, request?, plan, write, -, isCarriedOut⟩ :=
    handle_toTheEnd_of_calls calls service.policy asking
  obtain ⟨isPlanned, -, isEnded⟩ := isCarriedOut service.signer
  rw [isPlanned] at ends
  have isServed : served = ⟨_, _, _⟩ := isEnded ends
  obtain ⟨error, recorded⟩ := recordOf_isRecordOf_respond operation endpoint request? write
    (plan.result service.signer asking)
  have log : served.log = own ++
      [(operation.call endpoint request?).recordOf (plan.result service.signer asking)] := by
    show served.log = service.signer.logOf asking.history served.call? ++ _
    rw [isServed]
  refine ⟨request.finish (respond operation write (plan.result service.signer asking)), _,
    request?, error, ?_, log, ?_, ?_, ?_⟩
  · rw [isServed]
  · rw [log]
    exact countAccess_append_of_isRecordOf recorded
  · rw [Request.status_finish]
    exact recorded
  · rw [Request.status_finish]
    exact status_respond operation write _

/-- **Every request belongs to a class, and its class says what comes of it.** Let a request run to
its end; it does if the signer ends when it is called. What calls an operation has one access
record, which names the operation and has the status of the answer: that of success, 400 or 500. If
its body cannot be read, for whatever reason, it is told the reason with status 400, nothing of the
body is recorded, and the signer is not called. What bypasses the service has no record and no call,
and the status of its class. There are no other requests. -/
theorem request_classification (service : Service) (asking : Asking) (request : Request)
    (ends : ∀ call ∈ (handle service asking request .toTheEnd).call?,
      (service.signer asking.history call).waits ≠ none) :
    let served := handle service asking request .toTheEnd
    let own := service.signer.logOf asking.history served.call?
    ((∃ operation endpoint, request.Calls operation endpoint) ∨
      ∃ status, request.Bypasses status) ∧
    (∀ operation endpoint, request.Calls operation endpoint →
      (∃ (response : Response) (record : Event) (request? : Option RequestFields)
          (error : String),
        served.progress = .ended response ∧
        served.log = own ++ [record] ∧ countAccess served.log = countAccess own + 1 ∧
        record.IsRecordOf (operation.call endpoint request?) response.status error ∧
        response.status ∈ [operation.success, 400, 500]) ∧
      ∀ refusal ∈ request.refusal? operation,
        let problem := s!"malformed request body for {endpoint.name}: {refusal.reason}"
        ∃ record : Event,
          served = ⟨none, [record],
            .ended (Response.plain 400 s!"Bad request: {problem}").withLength⟩ ∧
          record.IsRecordOf (operation.call endpoint none) 400 problem) ∧
    ∀ status, request.Bypasses status →
      ∃ response : Response, served = ⟨none, [], .ended response⟩ ∧
        response.status = status := by
  intro served own
  refine ⟨request.calls_or_bypasses, fun operation endpoint calls =>
    ⟨recorded_of_calls calls ends, fun refusal refused => ?_⟩, fun status bypasses => ?_⟩
  · exact handle_of_refused calls refused service asking
  · obtain ⟨response, isStatus, answered⟩ := handle_of_bypasses bypasses
    exact ⟨response, answered service asking .toTheEnd, isStatus⟩

/-- What is posted without a media type is refused and recorded, also if the endpoint is written
with a percent sign. -/
theorem request_classification_without_media_type :
    let service : Service := ⟨Policy.ofEntries [], fun _ _ => ⟨[], some 0, .value []⟩⟩
    let request : Request := { method := "POST", target := "/v1/sig/%62lob/sign?again" }
    let problem :=
      "malformed request body for blob: Expected request with `Content-Type: application/json`"
    ∃ record : Event,
      handle service ⟨[], .ofRequest 0, false⟩ request .toTheEnd =
        ⟨none, [record],
          .ended (Response.plain 400 ("Bad request: " ++ problem)).withLength⟩ ∧
      record.IsRecordOf (Operation.sign.call .blob none) 400 problem := by
  intro service request problem
  have ends : ∀ call : SignerCall, (service.signer [] call).waits ≠ none := fun _ => nofun
  have calls : request.Calls .sign .blob :=
    ⟨⟨"%62lob", by decide +kernel, by decide, by decide +kernel⟩, .head _⟩
  have classified := request_classification service ⟨[], .ofRequest 0, false⟩ request
    fun call _ => ends call
  exact (classified.2.1 .sign .blob calls).2 .mediaType rfl

end Http

end Signet
