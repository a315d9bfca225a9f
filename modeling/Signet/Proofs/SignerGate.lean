import Signet.Proofs.Plans
import Signet.Session

/-!
# The gate before the signer

Whatever callers do, the signer is only asked for a key that the policy lets the request's endpoint
use, and to sign only what the request's digest decodes to. What a step of a session wants of the
signer is its inquiry, and `Policy.Lets` says which question an inquiry may put to the signer.

`Gated` is what is known of one answer, as a function of the signer: the signer is called just as
the policy lets the inquiry, and the answer depends on nothing that the signer would do on any other
call. Every operation and every request is answered in this way, so every step is
(`Session.step_gated`), and `signer_gate` follows for sessions of any length by induction on their
steps.
-/

namespace Signet

/-! ## Inquiries -/

/-- What a request wants of the signer, before anything is checked. -/
inductive Inquiry
  | publicKey (endpoint : Endpoint) (key? : Option KeyReference)
  | sign (endpoint : Endpoint) (request : SigningRequest)

/-- The inquiry that a body makes when it is posted for an operation. -/
def Http.inquiryFor? (operation : Operation) (endpoint : Endpoint) (request : Http.Request) :
    Option Inquiry :=
  match operation with
  | .listKeys => none
  | .publicKey =>
    match Body.read KeyReference.readOption request with
    | .ok key? => some (.publicKey endpoint key?)
    | .error _ => none
  | .sign =>
    match Body.read SigningRequest.read request with
    | .ok signingRequest => some (.sign endpoint signingRequest)
    | .error _ => none

/-- The inquiry that an HTTP request makes: it is posted to the route of an operation, and its
endpoint and its body can be read. -/
def Http.Request.inquiry? (request : Request) : Option Inquiry :=
  match Route.ofPath? (pathOf request.target) with
  | some (.operation operation segment) =>
    match readEndpoint segment with
    | .ok endpoint =>
      if request.method = "POST" then inquiryFor? operation endpoint request else none
    | .error _ => none
  | _ => none

/-- The inquiry that a step of a session makes, directly or by an HTTP request. -/
def Step.inquiry? : Step → Option Inquiry
  | .publicKey endpoint key? _ => some (.publicKey endpoint key?)
  | .sign endpoint signingRequest _ => some (.sign endpoint signingRequest)
  | .request httpRequest => httpRequest.inquiry?
  | .listKeys _ | .reject .. | .cancel _ => none

/-- Which question about which key a policy lets an inquiry put to the signer. The key is named, and
is one of those that the endpoint may use; what is to be signed is what the digest decodes to, for
the hash that the request names. -/
inductive Policy.Lets (policy : Policy) : Inquiry → Question → (identifier : String) → Prop
  | publicKey {endpoint : Endpoint} {identifier : String} :
    identifier ≠ "" → identifier ∈ policy.listKeys endpoint →
    Lets policy (.publicKey endpoint (some ⟨identifier⟩)) .publicKey identifier
  | sign {endpoint : Endpoint} {identifier text hash : String} {digest : Octets} :
    identifier ≠ "" → identifier ∈ policy.listKeys endpoint →
    Base64.decode text = .ok digest →
    Lets policy (.sign endpoint ⟨some ⟨identifier⟩, text, hash⟩)
      (.sign digest (HashAlgorithm.resolve hash)) identifier

theorem Policy.lets_publicKey_iff {policy : Policy} {endpoint : Endpoint}
    {key? : Option KeyReference} {question : Question} {identifier : String} :
    policy.Lets (.publicKey endpoint key?) question identifier ↔
      key? = some ⟨identifier⟩ ∧ identifier ≠ "" ∧
        identifier ∈ policy.listKeys endpoint ∧ question = .publicKey := by
  refine ⟨fun lets => ?_, fun checks => ?_⟩
  · cases lets with
    | publicKey nonempty listed => exact ⟨rfl, nonempty, listed, rfl⟩
  · obtain ⟨rfl, nonempty, listed, rfl⟩ := checks
    exact .publicKey nonempty listed

theorem Policy.lets_sign_iff {policy : Policy} {endpoint : Endpoint} {request : SigningRequest}
    {question : Question} {identifier : String} :
    policy.Lets (.sign endpoint request) question identifier ↔
      request.key? = some ⟨identifier⟩ ∧ identifier ≠ "" ∧
        identifier ∈ policy.listKeys endpoint ∧
        ∃ digest, Base64.decode request.digest = .ok digest ∧
          question = .sign digest (HashAlgorithm.resolve request.hash) := by
  refine ⟨fun lets => ?_, fun checks => ?_⟩
  · cases lets with
    | sign nonempty listed decoded => exact ⟨rfl, nonempty, listed, _, decoded, rfl⟩
  · rcases request with ⟨key?, text, hash⟩
    obtain ⟨rfl, nonempty, listed, digest, decoded, rfl⟩ := checks
    exact .sign nonempty listed decoded

/-! ## Plans ask what the policy lets -/

/-- That a plan puts to the signer just the question that a policy lets an inquiry put. -/
def Plan.Asks {α : Type} (plan : Plan α) (policy : Policy) (inquiry : Inquiry) : Prop :=
  ∀ (asking : Asking) (call : SignerCall), plan.call? asking = some call ↔
    policy.Lets inquiry call.question call.identifier ∧ call.token = asking.token ∧
      call.isCancelled = asking.isCancelled

namespace Plan

variable {α : Type} {policy : Policy} {inquiry : Inquiry}

theorem call?_ask_eq_some_iff {asking : Asking} {call : SignerCall} {identifier : String}
    {question : Question} {read : Octets → Except SigningError α} :
    (ask identifier question read).call? asking = some call ↔
      (call.question = question ∧ call.identifier = identifier) ∧ call.token = asking.token ∧
        call.isCancelled = asking.isCancelled := by
  rcases call with ⟨asked, named, token, isCancelled⟩
  rw [call?, Option.some.injEq, SignerCall.mk.injEq]
  refine ⟨fun asked => ?_, fun agrees => ?_⟩
  · obtain ⟨rfl, rfl, rfl, rfl⟩ := asked
    exact ⟨⟨rfl, rfl⟩, rfl, rfl⟩
  · obtain ⟨⟨rfl, rfl⟩, rfl, rfl⟩ := agrees
    exact ⟨rfl, rfl, rfl, rfl⟩

/-- A plan that is settled asks nothing, so it serves an inquiry that may ask nothing. -/
theorem asks_settled {result : Except SigningError α}
    (refused : ∀ question identifier, ¬ policy.Lets inquiry question identifier) :
    (settled result).Asks policy inquiry := fun _ call =>
  ⟨nofun, fun lets => absurd lets.1 (refused call.question call.identifier)⟩

/-- A plan that asks one question serves an inquiry that may ask just this one. -/
theorem asks_ask {identifier : String} {question : Question}
    {read : Octets → Except SigningError α}
    (lets : ∀ asked named, policy.Lets inquiry asked named ↔
      asked = question ∧ named = identifier) :
    (ask identifier question read).Asks policy inquiry := by
  intro asking call
  rw [call?_ask_eq_some_iff, lets]

variable (policy) (endpoint : Endpoint)

theorem publicKey_asks (key? : Option KeyReference) :
    (publicKey policy endpoint key?).Asks policy (.publicKey endpoint key?) := by
  rcases key? with _ | ⟨⟨identifier⟩⟩
  · exact asks_settled fun _ _ lets => nomatch (Policy.lets_publicKey_iff.mp lets).1
  · by_cases empty : identifier = ""
    · rw [publicKey_of_empty policy endpoint empty]
      refine asks_settled fun _ _ lets => ?_
      obtain ⟨⟨⟩, nonempty, -⟩ := Policy.lets_publicKey_iff.mp lets
      exact nonempty empty
    · by_cases listed : identifier ∈ policy.listKeys endpoint
      · rw [publicKey_of_listed policy endpoint empty listed]
        refine asks_ask fun asked named => ?_
        rw [Policy.lets_publicKey_iff]
        refine ⟨fun lets => ?_, fun asks => ?_⟩
        · obtain ⟨⟨⟩, -, -, rfl⟩ := lets
          exact ⟨rfl, rfl⟩
        · obtain ⟨rfl, rfl⟩ := asks
          exact ⟨rfl, empty, listed, rfl⟩
      · rw [publicKey_of_unlisted policy endpoint empty listed]
        refine asks_settled fun _ _ lets => ?_
        obtain ⟨⟨⟩, -, member, -⟩ := Policy.lets_publicKey_iff.mp lets
        exact listed member

theorem sign_asks (request : SigningRequest) :
    (sign policy endpoint request).Asks policy (.sign endpoint request) := by
  rcases names : request.key? with _ | ⟨⟨identifier⟩⟩
  · rw [sign_of_unnamed policy endpoint names]
    refine asks_settled fun _ _ lets => ?_
    exact nomatch names.symm.trans (Policy.lets_sign_iff.mp lets).1
  · -- The inquiry can only name the key that the request names.
    have named {other : String} (lets : request.key? = some ⟨other⟩) : other = identifier := by
      rw [names] at lets
      cases lets
      rfl
    by_cases empty : identifier = ""
    · rw [sign_of_empty policy endpoint names empty]
      refine asks_settled fun _ _ lets => ?_
      obtain ⟨names', nonempty, -⟩ := Policy.lets_sign_iff.mp lets
      exact nonempty ((named names').trans empty)
    by_cases listed : identifier ∈ policy.listKeys endpoint
    · cases decoded : Base64.decode request.digest with
      | error fault =>
        rw [sign_of_undecodable policy endpoint names empty listed decoded]
        refine asks_settled fun _ _ lets => ?_
        obtain ⟨-, -, -, digest, decoded', -⟩ := Policy.lets_sign_iff.mp lets
        exact nomatch decoded.symm.trans decoded'
      | ok digest =>
        rw [sign_of_decoded policy endpoint names empty listed decoded]
        refine asks_ask fun asked other => ?_
        rw [Policy.lets_sign_iff]
        refine ⟨fun lets => ?_, fun asks => ?_⟩
        · obtain ⟨names', -, -, digest', decoded', rfl⟩ := lets
          rw [decoded] at decoded'
          cases decoded'
          exact ⟨rfl, named names'⟩
        · obtain ⟨rfl, rfl⟩ := asks
          exact ⟨names, empty, listed, digest, decoded, rfl⟩
    · rw [sign_of_unlisted policy endpoint names empty listed]
      refine asks_settled fun _ _ lets => ?_
      obtain ⟨names', -, member, -⟩ := Policy.lets_sign_iff.mp lets
      rw [named names'] at member
      exact listed member

end Plan

/-! ## Answers -/

/-- What is known of one answer, as a function of the signer. -/
structure Gated {α : Type} (policy : Policy) (asking : Asking) (inquiry? : Option Inquiry)
    (patience : Patience) (answer : Signer → Served α) : Prop where
  /-- Unless the caller never polls, the signer is called just as the policy lets the inquiry. -/
  asks : ∀ (signer : Signer) (call : SignerCall), (answer signer).call? = some call ↔
    patience ≠ .polls 0 ∧
      (∃ inquiry ∈ inquiry?, policy.Lets inquiry call.question call.identifier) ∧
        call.token = asking.token ∧ call.isCancelled = asking.isCancelled
  /-- What signers would do on other calls does not matter. -/
  determined : ∀ signer other : Signer,
    (∀ call ∈ (answer signer).call?, other asking.history call = signer asking.history call) →
      answer other = answer signer

section Gated

variable {α β : Type} {policy : Policy} {asking : Asking} {inquiry? : Option Inquiry}
  {patience : Patience}

theorem Gated.map {answer : Signer → Served α} (convert : α → β)
    (gated : Gated policy asking inquiry? patience answer) :
    Gated policy asking inquiry? patience fun signer => (answer signer).map convert where
  asks := gated.asks
  determined signer other agree :=
    congrArg (Served.map convert) (gated.determined signer other agree)

/-- An answer without the signer, where there is no inquiry. -/
theorem Gated.alone {answer : Signer → Served α}
    (uncalled : ∀ signer, (answer signer).call? = none)
    (constant : ∀ signer other, answer other = answer signer) :
    Gated policy asking none patience answer where
  asks signer call := by
    rw [uncalled]
    refine ⟨nofun, fun asked => ?_⟩
    obtain ⟨-, ⟨inquiry, ⟨⟩, -⟩, -⟩ := asked
  determined signer other _ := constant signer other

/-- Tasks of a plan agree for signers that agree on the call of the plan. -/
theorem Plan.task_congr {plan : Plan α} {signer other : Signer}
    (agree : ∀ call ∈ plan.call? asking,
      other asking.history call = signer asking.history call) :
    plan.task other asking = plan.task signer asking := by
  cases plan with
  | settled result => rfl
  | ask identifier question read =>
    dsimp only [task]
    exact congrArg _ (agree _ rfl)

/-- A plan that asks what the policy lets is carried out as it should be. -/
theorem Plan.Asks.gated {plan : Plan α} {inquiry : Inquiry} (asks : plan.Asks policy inquiry)
    (call : Call) :
    Gated policy asking (some inquiry) patience fun signer =>
      Service.perform ⟨policy, signer⟩ asking call plan patience := by
  by_cases unpolled : patience = .polls 0
  · subst unpolled
    exact
      { asks := fun _ _ => ⟨nofun, fun polled => absurd rfl polled.1⟩
        determined := fun _ _ _ => rfl }
  · refine ⟨fun signer signerCall => ?_, fun signer other agree => ?_⟩
    · rw [Service.perform_call?_of_polled _ _ _ _ unpolled, asks asking signerCall]
      refine ⟨fun asked => ?_, fun gate => ?_⟩
      · obtain ⟨lets, handed⟩ := asked
        exact ⟨unpolled, ⟨inquiry, rfl, lets⟩, handed⟩
      · obtain ⟨-, ⟨_, ⟨⟩, lets⟩, handed⟩ := gate
        exact ⟨lets, handed⟩
    · rw [Service.perform_call?_of_polled _ _ _ _ unpolled] at agree
      unfold Service.perform
      rw [Plan.task_congr agree]

namespace Service

theorem listKeys_gated (endpoint : Endpoint) :
    Gated policy asking none patience fun signer =>
      listKeys ⟨policy, signer⟩ asking endpoint patience :=
  .alone (fun _ => perform_settled_call? _ _ _ _) fun _ _ => rfl

theorem publicKey_gated (endpoint : Endpoint) (key? : Option KeyReference) :
    Gated policy asking (some (.publicKey endpoint key?)) patience fun signer =>
      publicKey ⟨policy, signer⟩ asking endpoint key? patience :=
  (Plan.publicKey_asks policy endpoint key?).gated _

theorem sign_gated (endpoint : Endpoint) (request : SigningRequest) :
    Gated policy asking (some (.sign endpoint request)) patience fun signer =>
      sign ⟨policy, signer⟩ asking endpoint request patience :=
  (Plan.sign_asks policy endpoint request).gated _

theorem reject_gated (endpoint : Endpoint) (operation : Operation) (reason : String) :
    Gated policy asking none patience fun signer =>
      (reject ⟨policy, signer⟩ asking endpoint operation reason patience :
        Served (Except SigningError α)) :=
  .alone (fun _ => perform_settled_call? _ _ _ _) fun _ _ => rfl

end Service

end Gated

/-! ## Requests -/

namespace Http

variable {policy : Policy} {asking : Asking} {patience : Patience}

theorem answerAtOnce_gated (response : Response) :
    Gated policy asking none patience fun _ => answerAtOnce response patience := by
  refine .alone (fun _ => ?_) fun _ _ => rfl
  unfold answerAtOnce
  split
  · rfl
  · rfl

theorem serve_gated (operation : Operation) (endpoint : Endpoint) (request : Request) :
    Gated policy asking (inquiryFor? operation endpoint request) patience fun signer =>
      serve ⟨policy, signer⟩ asking operation endpoint request patience := by
  unfold serve inquiryFor?
  cases operation with
  | listKeys => exact (Service.listKeys_gated endpoint).map _
  | publicKey =>
    cases Body.read KeyReference.readOption request with
    | ok key? => exact (Service.publicKey_gated endpoint key?).map _
    | error refusal => exact (Service.reject_gated endpoint _ _).map _
  | sign =>
    cases Body.read SigningRequest.read request with
    | ok signingRequest => exact (Service.sign_gated endpoint signingRequest).map _
    | error refusal => exact (Service.reject_gated endpoint _ _).map _

/-- Where a method is allowed, only what is posted makes an inquiry. -/
theorem inquiryFor?_of_allowed {operation : Operation} {endpoint : Endpoint} {segment : String}
    {request : Request}
    (allowed : (Route.operation operation segment).methods.contains request.method = true) :
    (if request.method = "POST" then inquiryFor? operation endpoint request else none) =
      inquiryFor? operation endpoint request := by
  cases operation with
  | listKeys => exact ite_self none
  | publicKey | sign => exact if_pos (List.mem_singleton.mp (List.contains_iff_mem.mp allowed))

/-- Where a method is not allowed, there is no inquiry. -/
theorem inquiryFor?_of_not_allowed {operation : Operation} {endpoint : Endpoint}
    {segment : String} {request : Request}
    (notAllowed : (Route.operation operation segment).methods.contains request.method = false) :
    (if request.method = "POST" then inquiryFor? operation endpoint request else none) = none := by
  cases operation with
  | listKeys => exact ite_self none
  | publicKey | sign =>
    refine if_neg fun post => ?_
    rw [post] at notAllowed
    cases notAllowed

/-- A request is answered as its inquiry demands. -/
theorem handle_gated (request : Request) :
    Gated policy asking request.inquiry? patience fun signer =>
      handle ⟨policy, signer⟩ asking request patience := by
  unfold handle Request.inquiry?
  dsimp only
  cases Route.ofPath? (pathOf request.target) with
  | none => exact answerAtOnce_gated _
  | some route =>
    dsimp only
    cases allowed : route.methods.contains request.method with
    | true =>
      cases route with
      | healthcheck => exact (answerAtOnce_gated _).map _
      | operation operation segment =>
        dsimp only
        cases readEndpoint segment with
        | error problem => exact (answerAtOnce_gated _).map _
        | ok endpoint =>
          dsimp only
          rw [inquiryFor?_of_allowed allowed]
          exact (serve_gated operation endpoint request).map _
    | false =>
      cases route with
      | healthcheck => exact answerAtOnce_gated _
      | operation operation segment =>
        dsimp only
        cases readEndpoint segment with
        | error problem => exact answerAtOnce_gated _
        | ok endpoint =>
          dsimp only
          rw [inquiryFor?_of_not_allowed allowed]
          exact answerAtOnce_gated _

end Http

/-! ## Steps -/

/-- The token that the signer is handed if it is called in a step. Steps that never call it are
given the first token of callers. -/
def Step.tokenIn (session : Session) : Step → Token
  | .publicKey _ _ token | .sign _ _ token => .ofCaller token
  | .request _ => session.requestToken
  | .listKeys _ | .reject .. | .cancel _ => .ofCaller 0

namespace Session

variable {policy : Policy} {session : Session} {step : Step} {patience : Patience}

/-- What is known of one step, as a function of the signer. -/
structure IsGated (session : Session) (policy : Policy) (step : Step) (patience : Patience) :
    Prop where
  asks : ∀ (signer : Signer) (call : SignerCall),
    (session.step ⟨policy, signer⟩ step patience).1.call? = some call ↔
      patience ≠ .polls 0 ∧
        (∃ inquiry ∈ step.inquiry?, policy.Lets inquiry call.question call.identifier) ∧
          call.token = step.tokenIn session ∧
            call.isCancelled = session.isCancelled (step.tokenIn session)
  determined : ∀ signer other : Signer,
    (∀ call ∈ (session.step ⟨policy, signer⟩ step patience).1.call?,
      other session.history call = signer session.history call) →
    session.step ⟨policy, other⟩ step patience = session.step ⟨policy, signer⟩ step patience

/-- A step that is finished from a gated answer is gated. -/
theorem isGated_of_finish {α : Type} {answer : Signer → Served α}
    (gated : Gated policy (session.asking (step.tokenIn session)) step.inquiry? patience answer)
    (finish : Served α → Served Answer × Session)
    (finished : ∀ signer, session.step ⟨policy, signer⟩ step patience =
      finish (answer signer))
    (kept : ∀ served, (finish served).1.call? = served.call?) :
    session.IsGated policy step patience where
  asks signer call := by
    rw [finished, kept]
    exact gated.asks signer call
  determined signer other agree := by
    rw [finished, kept] at agree
    rw [finished, finished, gated.determined signer other agree]

/-- Every step is gated, whatever it is. -/
theorem step_gated (session : Session) (policy : Policy) (step : Step) (patience : Patience) :
    session.IsGated policy step patience := by
  cases step with
  | listKeys endpoint =>
    exact isGated_of_finish (Service.listKeys_gated endpoint)
      (fun served => (served.map (.ofResult .keys), session.remember served))
      (fun _ => rfl) fun _ => rfl
  | publicKey endpoint key? token =>
    exact isGated_of_finish (Service.publicKey_gated endpoint key?)
      (fun served => (served.map (.ofResult .publicKey), session.remember served))
      (fun _ => rfl) fun _ => rfl
  | sign endpoint signingRequest token =>
    exact isGated_of_finish (Service.sign_gated endpoint signingRequest)
      (fun served => (served.map (.ofResult .signature), session.remember served))
      (fun _ => rfl) fun _ => rfl
  | reject endpoint operation reason =>
    exact isGated_of_finish (Service.reject_gated endpoint operation reason)
      (fun served => (served.map (.ofResult .signature), session.remember served))
      (fun _ => rfl) fun _ => rfl
  | request httpRequest =>
    exact isGated_of_finish (Http.handle_gated httpRequest)
      (fun served => (served.map .response, session.afterRequest served))
      (fun _ => rfl) fun _ => rfl
  | cancel token =>
    exact isGated_of_finish (.alone (fun _ => rfl) fun _ _ => rfl)
      (fun served => (served, session.cancel (.ofCaller token))) (fun _ => rfl) fun _ => rfl

/-- A step adds its own call to what the signer has been asked. -/
theorem history_step (service : Service) :
    (session.step service step patience).2.history =
      session.history ++ (session.step service step patience).1.call?.toList := by
  cases step with
  | listKeys endpoint => rfl
  | publicKey endpoint key? token => rfl
  | sign endpoint signingRequest token => rfl
  | reject endpoint operation reason => rfl
  | request httpRequest =>
    show (session.afterRequest _).history = _
    unfold afterRequest
    split
    · rfl
    · rfl
  | cancel token => exact (List.append_nil _).symm

/-! ## Whole sessions -/

theorem trace_cons (service : Service) (session : Session) (next : Step) (patience : Patience)
    (steps : List (Step × Patience)) :
    session.trace service ((next, patience) :: steps) =
      session.step service next patience ::
        (session.step service next patience).2.trace service steps := rfl

theorem length_trace (service : Service) (session : Session) (steps : List (Step × Patience)) :
    (session.trace service steps).length = steps.length := by
  induction steps generalizing session with
  | nil => rfl
  | cons taken steps ih => exact congrArg (· + 1) (ih _)

/-- The calls of the signer in a trace, oldest first. -/
def callsOf (trace : List (Served Answer × Session)) : List SignerCall :=
  trace.filterMap fun answered => answered.1.call?

theorem callsOf_cons (answered : Served Answer × Session)
    (trace : List (Served Answer × Session)) :
    callsOf (answered :: trace) = answered.1.call?.toList ++ callsOf trace := by
  unfold callsOf
  rw [List.filterMap_cons]
  cases answered.1.call? with
  | none => rfl
  | some call => rfl

/-- What the signer has been asked after a session is what it had been asked before and the calls of
the trace. -/
theorem history_of_trace (service : Service) (session : Session)
    (steps : List (Step × Patience)) :
    ∀ last ∈ (session.trace service steps).getLast?,
      last.2.history = session.history ++ callsOf (session.trace service steps) := by
  induction steps generalizing session with
  | nil => exact nofun
  | cons taken steps ih =>
    rcases taken with ⟨next, patience⟩
    rw [trace_cons, callsOf_cons, ← List.append_assoc, ← history_step]
    intro last isLast
    cases rest : (session.step service next patience).2.trace service steps with
    | nil =>
      rw [rest] at isLast
      cases isLast
      exact (List.append_nil _).symm
    | cons answered trace =>
      rw [rest, List.getLast?_cons_cons, ← rest] at isLast
      rw [← rest]
      exact ih _ last isLast

/-- Two signers that agree on every call of a trace have the same trace. -/
theorem trace_congr {signer other : Signer} {steps : List (Step × Patience)}
    (agree : ∀ earlier call later,
      callsOf (session.trace ⟨policy, signer⟩ steps) = earlier ++ call :: later →
        other (session.history ++ earlier) call = signer (session.history ++ earlier) call) :
    session.trace ⟨policy, other⟩ steps = session.trace ⟨policy, signer⟩ steps := by
  induction steps generalizing session with
  | nil => rfl
  | cons taken steps ih =>
    rcases taken with ⟨next, patience⟩
    rw [trace_cons, callsOf_cons] at agree
    have same : session.step ⟨policy, other⟩ next patience =
        session.step ⟨policy, signer⟩ next patience := by
      refine (session.step_gated policy next patience).determined signer other ?_
      intro call called
      have first := agree [] call _ (by rw [called]; rfl)
      rwa [List.append_nil] at first
    rw [trace_cons, trace_cons, same]
    refine congrArg _ (ih ?_)
    intro earlier call later calls
    rw [history_step, List.append_assoc]
    exact agree _ call later (by rw [calls, List.append_assoc])

end Session

/-- That the signer is called in a step just as a policy lets the inquiry of the step: by a caller
that polls, and with a question about a key that the inquiry may put. -/
def Policy.Gates (policy : Policy) (step : Step) (patience : Patience)
    (call? : Option SignerCall) : Prop :=
  ∀ question identifier,
    (∃ call ∈ call?, call.question = question ∧ call.identifier = identifier) ↔
      patience ≠ .polls 0 ∧
        ∃ inquiry ∈ step.inquiry?, policy.Lets inquiry question identifier

theorem Session.IsGated.gates {session : Session} {policy : Policy} {step : Step}
    {patience : Patience} (gated : session.IsGated policy step patience) (signer : Signer) :
    policy.Gates step patience (session.step ⟨policy, signer⟩ step patience).1.call? := by
  intro question identifier
  refine ⟨fun asked => ?_, fun gate => ?_⟩
  · obtain ⟨call, called, rfl, rfl⟩ := asked
    obtain ⟨polled, lets, -⟩ := (gated.asks signer call).mp called
    exact ⟨polled, lets⟩
  · obtain ⟨polled, lets⟩ := gate
    exact ⟨⟨question, identifier, step.tokenIn session,
      session.isCancelled (step.tokenIn session)⟩,
      (gated.asks signer _).mpr ⟨polled, lets, rfl, rfl⟩, rfl, rfl⟩

/-- A policy gates every step of a session. -/
theorem Session.trace_gates (policy : Policy) (signer : Signer) (session : Session)
    (steps : List (Step × Patience)) :
    ∀ taken ∈ steps.zip (session.trace ⟨policy, signer⟩ steps),
      policy.Gates taken.1.1 taken.1.2 taken.2.1.call? := by
  induction steps generalizing session with
  | nil =>
    rw [List.zip_nil_left]
    exact fun _ member => absurd member List.not_mem_nil
  | cons taken steps ih =>
    rcases taken with ⟨next, patience⟩
    rw [trace_cons, List.zip_cons_cons]
    intro pair member
    rcases List.mem_cons.mp member with isFirst | member
    · rw [isFirst]
      exact (session.step_gated policy next patience).gates signer
    · exact ih _ pair member

/-- **The signer is only asked what the policy lets a request ask.** In every session, from wherever
it starts, each step has its own answer, and the signer is called in it, and then once, just if the
caller polls and the step's inquiry passes every check. The session remembers these calls in their
order and no others; and the signer is not consulted otherwise, since a signer that would do the
same on these calls leads to the same trace. -/
theorem signer_gate (policy : Policy) (signer : Signer) (session : Session)
    (steps : List (Step × Patience)) :
    let trace := session.trace ⟨policy, signer⟩ steps
    trace.length = steps.length ∧
    (∀ taken ∈ steps.zip trace, policy.Gates taken.1.1 taken.1.2 taken.2.1.call?) ∧
    (∀ last ∈ trace.getLast?, last.2.history = session.history ++ Session.callsOf trace) ∧
    ∀ other : Signer,
      (∀ earlier call later, Session.callsOf trace = earlier ++ call :: later →
        other (session.history ++ earlier) call = signer (session.history ++ earlier) call) →
      session.trace ⟨policy, other⟩ steps = trace := by
  exact ⟨session.length_trace _ steps, session.trace_gates policy signer steps,
    session.history_of_trace _ steps, fun _ agree => Session.trace_congr agree⟩

/-- The gate opens for a listed key and a digest that decodes, also if the signer never ends and its
caller polls but once. -/
theorem signer_gate_opens_for_listed_key :
    let signer : Signer := fun _ _ => ⟨[], none, .value []⟩
    let policy := Policy.ofEntries [(.blob, ["key"])]
    let step : Step := .sign .blob ⟨some ⟨"key"⟩, "AQI=", "SHA512"⟩ 0
    ∃ call ∈ (({} : Session).step ⟨policy, signer⟩ step (.polls 1)).1.call?,
      call.question = .sign [1, 2] .sha512 ∧ call.identifier = "key" := by
  intro signer policy step
  have gates := (signer_gate policy signer {} [(step, .polls 1)]).2.1 _ (.head _)
  refine (gates _ _).mpr ⟨nofun, _, rfl, ?_⟩
  exact .sign (by decide) (by decide) rfl

end Signet
