import Signet.Proofs.Routing
import Signet.Proofs.SignerGate

/-!
# What a step of a session does

A step either leaves no trace, whatever the signer is, or it carries out a plan as a call
(`Session.Performs`), and this covers every step, made directly or as a request
(`Session.step_performs`). What a call logs follows from what came of it (`Call.logOf`,
`Service.perform_log`), and an answer has the status that the record of its call has.
-/

namespace Signet

/-! ## Calls -/

/-- What is logged by a call, given what its work logs itself and what came of it. -/
def Call.logOf {α : Type} (call : Call) (own : List Event) :
    Progress (Except SigningError α) → List Event
  | .untouched => []
  | .pending => own
  | .dropped => own ++ [call.record 500 incompleteMessage]
  | .ended result => own ++ [call.recordOf result]

theorem Call.observe_log {α : Type} (call : Call) (task : Task SigningError α)
    (patience : Patience) :
    (call.observe task patience).log = call.logOf task.log (task.outcome patience) := by
  rcases patience with _ | _ | polls
  · cases ends : task.waits with
    | none =>
      have early : ∀ waits, task.waits = some waits → task.waits.getD 0 < waits := by
        rw [ends]
        exact nofun
      dsimp only [observe, Task.outcome]
      rw [Observation.after_of_early early, ends]
      rfl
    | some waits =>
      rw [observe_toTheEnd_of_ends call task ends, Task.outcome, ends]
      rfl
  · rfl
  · dsimp only [observe, Task.outcome]
    rcases task.due_or_early polls with ⟨waits, ends, due⟩ | early
    · rw [Observation.after_of_due ends due, ends]
      dsimp only
      rw [if_pos due]
      rfl
    · rw [Observation.after_of_early early]
      cases ends : task.waits with
      | none => rfl
      | some waits =>
        dsimp only
        rw [if_neg (Nat.not_le.mpr (early waits ends))]
        rfl

theorem Service.perform_log {α : Type} (service : Service) (asking : Asking) (call : Call)
    (plan : Plan α) (patience : Patience) :
    (service.perform asking call plan patience).log =
      call.logOf (service.signer.logOf asking.history (plan.call? asking))
        ((plan.task service.signer asking).outcome patience) := by
  rw [← plan.log_task]
  exact call.observe_log _ patience

theorem Progress.map_map {α β γ : Type} (first : α → β) (second : β → γ)
    (progress : Progress α) :
    (progress.map first).map second = progress.map (second ∘ first) := by
  cases progress with
  | untouched | dropped | pending | ended _ => rfl

theorem Progress.isOver_map {α β : Type} (convert : α → β) (progress : Progress α) :
    (progress.map convert).isOver = progress.isOver := by
  cases progress with
  | untouched | dropped | pending | ended _ => rfl

/-! ## Answers -/

/-- The status of an answer. A cancellation has none. -/
def Answer.status? : Answer → Option Nat
  | keys _ | publicKey _ => some 200
  | signature _ => some 201
  | failed error => some error.status
  | response delivered => some delivered.status
  | cancelled => none

theorem Operation.success_mem (operation : Operation) : operation.success ∈ [200, 201] := by
  cases operation with
  | listKeys | publicKey => exact .head _
  | sign => exact .tail _ (.head _)

/-! ## Steps -/

namespace Session

variable {policy : Policy} {session : Session} {step : Step} {patience : Patience}

/-- That a step carries out a plan as a call, with whatever signer, and makes its answer from the
result. The answer to a question has the status that the record of the call has. -/
structure Performs {α : Type} (session : Session) (policy : Policy) (step : Step)
    (patience : Patience) (call : Call) (plan : Plan α)
    (answer : Except SigningError α → Answer) : Prop where
  plans : policy.Plans plan
  performs : ∀ signer : Signer, (session.step ⟨policy, signer⟩ step patience).1 =
    (Service.perform ⟨policy, signer⟩ (session.asking (step.tokenIn session)) call plan
      patience).map answer
  failure : ∀ error, (answer (.error error)).status? = some error.status
  success : (∀ result, plan ≠ .settled result) →
    ∀ value, (answer (.ok value)).status? = some call.success
  isSuccess : call.success ∈ [200, 201]

/-- That a step leaves no trace: it calls no signer and logs nothing. -/
def LeavesNoTrace (session : Session) (policy : Policy) (step : Step) (patience : Patience) :
    Prop :=
  ∃ progress, ∀ signer : Signer,
    (session.step ⟨policy, signer⟩ step patience).1 = ⟨none, [], progress⟩

theorem leavesNoTrace_answerAtOnce (response : Http.Response) (patience : Patience) :
    ∃ progress, Http.answerAtOnce response patience = ⟨none, [], progress⟩ := by
  rcases patience with _ | _ | polls
  · exact ⟨_, rfl⟩
  · exact ⟨_, rfl⟩
  · exact ⟨_, rfl⟩

/-- A request leaves no trace, or carries out a plan. -/
theorem request_performs (session : Session) (policy : Policy) (request : Http.Request)
    (patience : Patience) :
    session.LeavesNoTrace policy (.request request) patience ∨
      ∃ (α : Type) (call : Call) (plan : Plan α) (answer : Except SigningError α → Answer),
        session.Performs policy (.request request) patience call plan answer := by
  rcases request.calls_or_bypasses with ⟨operation, endpoint, calls⟩ | ⟨status, bypasses⟩
  · obtain ⟨α, request?, plan, write, plans, isServed⟩ :=
      Http.exists_serve_eq_perform operation policy endpoint request
    refine Or.inr ⟨α, operation.call endpoint request?, plan,
      fun result => .response (request.finish (Http.respond operation write result)),
      plans, fun signer => ?_, fun error => ?_, fun _ value => ?_, operation.success_mem⟩
    · show (Http.handle _ _ request patience).map Answer.response = _
      rw [Http.handle_of_calls calls, isServed]
      show Served.mk _ _ (((Progress.map _ _).map _).map _) = Served.mk _ _ (Progress.map _ _)
      rw [Progress.map_map, Progress.map_map]
      rfl
    · exact congrArg some (request.status_finish _)
    · exact congrArg some (request.status_finish _)
  · obtain ⟨response, -, answered⟩ := Http.handle_of_bypasses bypasses
    obtain ⟨progress, atOnce⟩ := leavesNoTrace_answerAtOnce response patience
    refine Or.inl ⟨progress.map .response, fun signer => ?_⟩
    show (Http.handle _ _ request patience).map Answer.response = _
    rw [answered, atOnce]
    rfl

/-- Every step leaves no trace, or carries out a plan. -/
theorem step_performs (session : Session) (policy : Policy) (step : Step) (patience : Patience) :
    session.LeavesNoTrace policy step patience ∨
      ∃ (α : Type) (call : Call) (plan : Plan α) (answer : Except SigningError α → Answer),
        session.Performs policy step patience call plan answer := by
  cases step with
  | listKeys endpoint =>
    exact Or.inr ⟨KeyListing, Operation.listKeys.call endpoint none, _, .ofResult .keys,
      .listing endpoint, fun _ => rfl, fun _ => rfl, fun _ _ => rfl,
      Operation.success_mem .listKeys⟩
  | publicKey endpoint key? token =>
    exact Or.inr ⟨PublicKey, Operation.publicKey.call endpoint none, _, .ofResult .publicKey,
      .publicKey endpoint key?, fun _ => rfl, fun _ => rfl, fun _ _ => rfl,
      Operation.success_mem .publicKey⟩
  | sign endpoint request token =>
    exact Or.inr ⟨Signature,
      Operation.sign.call endpoint (some ⟨request.digest, request.hash⟩), _,
      .ofResult .signature, .sign endpoint request, fun _ => rfl, fun _ => rfl, fun _ _ => rfl,
      Operation.success_mem .sign⟩
  | reject endpoint operation reason =>
    exact Or.inr ⟨Signature, operation.call endpoint none, _, .ofResult .signature,
      .refusal endpoint reason, fun _ => rfl, fun _ => rfl,
      fun asks => absurd rfl (asks _), operation.success_mem⟩
  | request request => exact session.request_performs policy request patience
  | cancel token => exact Or.inl ⟨_, fun _ => rfl⟩

/-- The session after a step that has come to something. -/
def after (session : Session) (step : Step) (served : Served Answer) : Session :=
  match step with
  | .cancel token => session.cancel (.ofCaller token)
  | .request _ =>
    let next := { session.remember served with requests := session.requests + 1 }
    if served.progress.isOver then next.cancel session.requestToken else next
  | .listKeys _ | .publicKey .. | .sign .. | .reject .. => session.remember served

/-- What a session remembers of a step is in the call that the step made and in whether it is
over. -/
theorem step_snd (service : Service) (session : Session) (step : Step) (patience : Patience) :
    (session.step service step patience).2 =
      session.after step (session.step service step patience).1 := by
  cases step with
  | request request =>
    show afterRequest _ (Http.handle _ _ request patience) =
      if (Progress.map _ (Http.handle _ _ request patience).progress).isOver then _ else _
    rw [Progress.isOver_map]
    rfl
  | listKeys _ | publicKey _ _ _ | sign _ _ _ | reject _ _ _ | cancel _ => rfl

/-! ## Traces -/

/-- Everything in a trace is the answer to a step. -/
theorem exists_mem_zip_trace {service : Service} {steps : List (Step × Patience)}
    {answered : Served Answer × Session} (member : answered ∈ session.trace service steps) :
    ∃ next, (next, answered) ∈ steps.zip (session.trace service steps) := by
  have aligned : (steps.zip (session.trace service steps)).map Prod.snd =
      session.trace service steps :=
    List.map_snd_zip (Nat.le_of_eq (session.length_trace service steps))
  rw [← aligned] at member
  obtain ⟨⟨next, _⟩, isTaken, rfl⟩ := List.mem_map.mp member
  exact ⟨next, isTaken⟩

/-- What holds of every step, wherever a session stands, holds of everything in a trace. -/
theorem forall_mem_trace {service : Service} (holds : Served Answer → Prop)
    (ofStep : ∀ (session : Session) (step : Step) (patience : Patience),
      holds (session.step service step patience).1)
    (session : Session) (steps : List (Step × Patience)) :
    ∀ answered ∈ session.trace service steps, holds answered.1 := by
  induction steps generalizing session with
  | nil => exact fun _ member => absurd member List.not_mem_nil
  | cons taken steps ih =>
    rcases taken with ⟨next, patience⟩
    rw [trace_cons, List.forall_mem_cons]
    exact ⟨ofStep session next patience, ih _⟩

end Session

end Signet
