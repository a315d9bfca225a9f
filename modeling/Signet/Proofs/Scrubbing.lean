import Signet.Proofs.HttpRefinement
import Signet.Proofs.SignerGate

/-!
# What callers are told of failures

A caller is told what it did wrong and nothing else. Whatever signer fails, and however it fails,
the answer is one and the same (`Http.internalError`), while the access record has all that there is
to say about the failure. And an answer that blames the caller is made before the signer is asked,
so it is the same for all signers (`Http.uncalled_of_status_400`).
-/

namespace Signet.Http

/-- What callers are told when the service is to blame. -/
def internalError : Response :=
  (Response.plain 500 "Internal server error").withLength

/-- That a request reaches the signer and the signer fails, and what there is to say about it. -/
def Request.FailsWith (request : Request) (policy : Policy) (asking : Asking) (signer : Signer)
    (told : String) : Prop :=
  ∃ call, (handle ⟨policy, signer⟩ asking request .toTheEnd).call? = some call ∧
    (signer asking.history call).waits ≠ none ∧
    call.question.Fails (signer asking.history call).ending told

section Scrubbing

variable {policy : Policy} {asking : Asking} {request : Request} {signer : Signer}

/-- A request that makes a call of the signer calls an operation. -/
theorem exists_calls_of_call {call : SignerCall}
    (called : (handle ⟨policy, signer⟩ asking request .toTheEnd).call? = some call) :
    ∃ operation endpoint, request.Calls operation endpoint := by
  rcases request.calls_or_bypasses with calls | ⟨status, bypasses⟩
  · exact calls
  · obtain ⟨response, -, answered⟩ := handle_of_bypasses bypasses
    rw [answered] at called
    cases called

/-- Listing keys does not fail. -/
theorem status_of_listKeys {endpoint : Endpoint} {response : Response}
    (calls : request.Calls .listKeys endpoint)
    (ended : (handle ⟨policy, signer⟩ asking request .toTheEnd).progress = .ended response) :
    response.status = 200 := by
  rw [handle_of_calls calls] at ended
  cases ended
  exact request.status_finish _

/-- What the caller is told when the signer fails does not tell how, and the log does. -/
theorem internalError_of_fails {told : String}
    (fails : request.FailsWith policy asking signer told) :
    let served := handle ⟨policy, signer⟩ asking request .toTheEnd
    served.progress = .ended internalError ∧
      ∃ (record : Event) (operation : Operation) (endpoint : Endpoint)
        (request? : Option RequestFields),
        served.log = signer.logOf asking.history served.call? ++ [record] ∧
        request.Calls operation endpoint ∧
        record.IsRecordOf (operation.call endpoint request?) 500 told := by
  intro served
  obtain ⟨call, called, callEnds, callFails⟩ := fails
  obtain ⟨operation, endpoint, calls⟩ := exists_calls_of_call called
  obtain ⟨α, request?, plan, write, honest, isCarriedOut⟩ :=
    handle_toTheEnd_of_calls calls policy asking
  obtain ⟨isPlanned, -, isEnded⟩ := isCarriedOut signer
  have asked : plan.call? asking = some call := isPlanned.symm.trans called
  have ends : ∀ call ∈ plan.call? asking, (signer asking.history call).waits ≠ none := by
    rw [asked]
    rintro _ ⟨⟩
    exact callEnds
  obtain ⟨error, failed, serviceOnly, message⟩ := honest.result_of_fails asked callFails
  have status := SigningError.status_of_not_callers serviceOnly
  have isServed : served = ⟨_, _, _⟩ := isEnded ends
  rw [failed] at isServed
  have answered : served.progress = .ended (request.finish (.ofError error)) := by
    rw [isServed]
    rfl
  have posts : operation ≠ .listKeys := by
    rintro rfl
    have listed := status_of_listKeys calls answered
    rw [Request.status_finish] at listed
    exact nomatch status.symm.trans listed
  have scrubbed : Response.ofError error = .plain 500 "Internal server error" := by
    unfold Response.ofError
    rw [status, SigningError.publicMessage_of_not_callers serviceOnly]
    rfl
  refine ⟨?_, (operation.call endpoint request?).record 500 told, operation, endpoint, request?,
    ?_, calls, Call.record_isRecordOf _ _ _⟩
  · rw [answered, calls.finish posts, scrubbed]
    rfl
  · rw [isServed, ← message, ← status]
    rfl

/-- What is answered with status 400 when an operation is called blames the caller, and the signer
was not called. -/
theorem uncalled_of_status_400 {operation : Operation} {endpoint : Endpoint} {response : Response}
    (calls : request.Calls operation endpoint)
    (ended : (handle ⟨policy, signer⟩ asking request .toTheEnd).progress = .ended response)
    (status : response.status = 400) :
    (handle ⟨policy, signer⟩ asking request .toTheEnd).call? = none ∧
      ∃ error : SigningError, error.isCallers = true ∧
        response = (Response.plain 400 ("Bad request: " ++ error.message)).withLength := by
  have posts : operation ≠ .listKeys := by
    rintro rfl
    exact nomatch status.symm.trans (status_of_listKeys calls ended)
  obtain ⟨α, request?, plan, write, honest, isCarriedOut⟩ :=
    handle_toTheEnd_of_calls calls policy asking
  obtain ⟨isPlanned, ends, isEnded⟩ := isCarriedOut signer
  have answered := isEnded (ends response ended)
  rw [answered, Progress.ended.injEq, calls.finish posts] at ended
  have isResult : (respond operation write (plan.result signer asking)).status = 400 := by
    rw [← status, ← ended]
    rfl
  cases result : plan.result signer asking with
  | ok value =>
    rw [result] at isResult
    cases operation with
    | listKeys | publicKey | sign => cases isResult
  | error error =>
    rw [result] at ended isResult
    have callers := SigningError.isCallers_of_status isResult
    refine ⟨?_, error, callers, ?_⟩
    · rw [isPlanned, honest.settled_of_isCallers result callers]
      rfl
    · rw [← ended]
      show (Response.plain error.status error.publicMessage).withLength = _
      rw [SigningError.status_of_callers callers, SigningError.publicMessage_of_callers callers]

end Scrubbing

/-- **Callers are told of their own errors and of no others, and the log has all of them.** Let a
request reach the signer. If it fails, with a chain of texts, a crash, or octets that are no text,
the answer tells nothing of it, so it is the same for any two failing signers; and the access record
tells all of it. An answer with status 400, on the other hand, is the same for all signers, and
where an operation was called it tells an error of the caller. -/
theorem failures_are_scrubbed (policy : Policy) (asking : Asking) (request : Request) :
    (∀ (signer : Signer) (told : String), request.FailsWith policy asking signer told →
      let served := handle ⟨policy, signer⟩ asking request .toTheEnd
      served.progress = .ended internalError ∧
        ∃ (record : Event) (operation : Operation) (endpoint : Endpoint)
          (request? : Option RequestFields),
          served.log = signer.logOf asking.history served.call? ++ [record] ∧
          request.Calls operation endpoint ∧
          record.IsRecordOf (operation.call endpoint request?) 500 told) ∧
    (∀ (signer other : Signer) (told toldOther : String),
      request.FailsWith policy asking signer told →
      request.FailsWith policy asking other toldOther →
      (handle ⟨policy, other⟩ asking request .toTheEnd).progress =
        (handle ⟨policy, signer⟩ asking request .toTheEnd).progress) ∧
    ∀ (signer : Signer) (response : Response),
      (handle ⟨policy, signer⟩ asking request .toTheEnd).progress = .ended response →
      response.status = 400 →
      (∀ other : Signer, handle ⟨policy, other⟩ asking request .toTheEnd =
        handle ⟨policy, signer⟩ asking request .toTheEnd) ∧
      ∀ operation endpoint, request.Calls operation endpoint →
        ∃ error : SigningError, error.isCallers = true ∧
          response = (Response.plain 400 ("Bad request: " ++ error.message)).withLength := by
  refine ⟨fun signer told fails => internalError_of_fails fails,
    fun signer other told toldOther fails failsOther => ?_, fun signer response ended status =>
      ⟨fun other => ?_, fun operation endpoint calls =>
        (uncalled_of_status_400 calls ended status).2⟩⟩
  · rw [(internalError_of_fails fails).1, (internalError_of_fails failsOther).1]
  · refine (handle_gated request).determined signer other fun call called => ?_
    obtain ⟨operation, endpoint, calls⟩ := exists_calls_of_call called
    have uncalled := (uncalled_of_status_400 calls ended status).1
    exact nomatch uncalled.symm.trans called

/-- A signer that reports what it could not reach and one that crashes are not told apart. -/
theorem failures_are_scrubbed_for_key1 :
    let policy := Policy.ofEntries [(.blob, ["key1"])]
    let asking : Asking := ⟨[], .ofRequest 0, false⟩
    let request := Request.post .publicKey .blob (KeyReference.writeOption (some ⟨"key1"⟩))
    let reporting : Signer :=
      fun _ _ => ⟨[], some 0, .failed ⟨"no answer", ["slot 3 is empty"]⟩⟩
    let crashing : Signer := fun _ _ => ⟨[], some 2, .crashed ⟨none⟩⟩
    (handle ⟨policy, crashing⟩ asking request .toTheEnd).progress =
      (handle ⟨policy, reporting⟩ asking request .toTheEnd).progress := by
  intro policy asking request reporting crashing
  have posts : request.Posts .publicKey .blob (KeyReference.writeOption (some ⟨"key1"⟩)) :=
    Request.posts_post (by decide +kernel)
  have asked : (Plan.publicKey policy .blob (some ⟨"key1"⟩)).call? asking =
      some ⟨.publicKey, "key1", .ofRequest 0, false⟩ := by
    rw [Plan.publicKey_of_listed policy .blob (by decide) (by decide)]
    rfl
  have called (signer : Signer) : (handle ⟨policy, signer⟩ asking request .toTheEnd).call? =
      some ⟨.publicKey, "key1", .ofRequest 0, false⟩ := by
    have polled : Patience.toTheEnd ≠ .polls 0 := nofun
    rw [handle_of_calls (posts.calls nofun), serve_of_posted_key posts]
    exact (Service.perform_call?_of_polled ⟨policy, signer⟩ asking _ _ polled).trans asked
  exact (failures_are_scrubbed policy asking request).2.1 reporting crashing _ _
    ⟨_, called reporting, nofun, .reported⟩ ⟨_, called crashing, nofun, .crashed⟩

end Signet.Http
