import Signet.Service

/-!
# Access records

A call that has been polled leaves exactly one access record behind, written when it ends or is
dropped, and the record agrees with what came of the call. The guard carries this:
`Observation.Reached` says where a call can stand after some polls and what it has logged by then,
one poll keeps it (`Observation.Reached.poll`), and so every number of polls does
(`Observation.reached_after`).

`Observed.IsRecordedOnce` is the agreement of log and outcome, and `Task.outcome` is what a task
comes to for a caller with some patience. `calls_are_recorded_once` puts the two together for every
call with every task, and carries them over to the operations of a service with every signer.
-/

namespace Signet

/-! ## The guard of a call -/

/-- The record that a result calls for. -/
def Call.recordOf {α : Type} (call : Call) : Except SigningError α → Event
  | .ok _ => call.record call.success ""
  | .error error => call.record error.status error.message

theorem Guard.release_note {α : Type} (guard : Guard) (result : Except SigningError α) :
    (guard.note result).release = guard.call.recordOf result := by
  cases result with
  | ok value => rfl
  | error error => rfl

/-! ## Polls -/

section Polls

variable {α : Type} {call : Call} {task : Task SigningError α}

theorem Task.poll_pending {polls : Nat}
    (early : ∀ waits, task.waits = some waits → polls < waits) :
    task.poll polls = .pending := by
  unfold Task.poll
  cases ends : task.waits with
  | none => rfl
  | some waits => exact if_neg (Nat.not_le.mpr (early waits ends))

theorem Task.poll_ready {polls waits : Nat} (ends : task.waits = some waits)
    (due : waits ≤ polls) : task.poll polls = .ready task.ending := by
  unfold Task.poll
  rw [ends]
  exact if_pos due

/-- Either a task is due by some poll, or it is still pending then. -/
theorem Task.due_or_early (task : Task SigningError α) (polls : Nat) :
    (∃ waits, task.waits = some waits ∧ waits ≤ polls) ∨
      ∀ waits, task.waits = some waits → polls < waits := by
  by_cases due : ∃ waits, task.waits = some waits ∧ waits ≤ polls
  · exact Or.inl due
  · refine Or.inr fun waits ends => Nat.lt_of_not_le fun le => due ⟨waits, ends, le⟩

/-- Where a call can stand after some polls, and what has been logged by then. The task has logged
at the first poll; a running call has a blank guard and has logged nothing else; a finished call has
its record. -/
inductive Observation.Reached (call : Call) (task : Task SigningError α) :
    (polls : Nat) → Observation α → Prop
  | unstarted : Reached call task 0 {}
  | running {polls : Nat} :
    (∀ waits, task.waits = some waits → polls < waits) →
    Reached call task (polls + 1) ⟨task.log, .running { call } (polls + 1)⟩
  | finished {polls waits : Nat} :
    task.waits = some waits → waits ≤ polls →
    Reached call task (polls + 1)
      ⟨task.log ++ [call.recordOf task.ending.contain], .finished task.ending.contain⟩

/-- The task of a call that has not ended is polled once more. -/
theorem Observation.Reached.advance {polls : Nat} {observation : Observation α}
    (logged : observation.log ++ task.logOf polls = task.log) :
    Reached call task (polls + 1) (observation.advance task { call } polls) := by
  unfold Observation.advance
  rw [logged]
  rcases task.due_or_early polls with ⟨waits, ends, due⟩ | early
  · rw [Task.poll_ready ends due]
    dsimp only
    rw [Guard.release_note]
    exact .finished ends due
  · rw [Task.poll_pending early]
    exact .running early

/-- One poll keeps what is known of a call. -/
theorem Observation.Reached.poll {polls : Nat} {observation : Observation α}
    (reached : Reached call task polls observation) :
    Reached call task (polls + 1) (observation.poll call task) := by
  cases reached with
  | unstarted => exact advance rfl
  | running _ => exact advance (List.append_nil _)
  | finished ends due => exact .finished ends (Nat.le_succ_of_le due)

/-- After any number of polls a call stands where it can stand. -/
theorem Observation.reached_after (call : Call) (task : Task SigningError α) (polls : Nat) :
    Reached call task polls (after call task polls) := by
  induction polls with
  | zero => exact .unstarted
  | succ polls ih => exact ih.poll

/-- While its task is pending, a call is running. -/
theorem Observation.after_of_early {polls : Nat}
    (early : ∀ waits, task.waits = some waits → polls < waits) :
    after call task (polls + 1) = ⟨task.log, .running { call } (polls + 1)⟩ := by
  have reached := reached_after call task (polls + 1)
  generalize after call task (polls + 1) = observation at reached
  cases reached with
  | running _ => rfl
  | finished ends due => exact absurd due (Nat.not_le.mpr (early _ ends))

/-- From the poll at which its task ends, a call is finished. -/
theorem Observation.after_of_due {polls waits : Nat} (ends : task.waits = some waits)
    (due : waits ≤ polls) :
    after call task (polls + 1) =
      ⟨task.log ++ [call.recordOf task.ending.contain], .finished task.ending.contain⟩ := by
  have reached := reached_after call task (polls + 1)
  generalize after call task (polls + 1) = observation at reached
  cases reached with
  | running early => exact absurd due (Nat.not_le.mpr (early _ ends))
  | finished _ _ => rfl

end Polls

/-! ## Agreement of log and outcome -/

/-- That an event is the access record of a call that has come to some status and error text. What
the caller has sent and the text of the error are quoted. -/
structure Event.IsRecordOf (event : Event) (call : Call) (status : Nat) (error : String) :
    Prop where
  target : event.target = "signing_service::access"
  level : event.level = if 500 ≤ status ∧ status < 600 then .error else .info
  fields : event.fields =
    [("m", .quoted call.method)] ++
      (call.request?.toList.flatMap fun request =>
        [("digest", .verbatim (Text.quote request.digest)),
         ("hash", .verbatim (Text.quote request.hash))]) ++
      [("st", .number status), ("err", .verbatim (Text.quote error))]

/-- How many events of a log are access records. -/
def countAccess (log : List Event) : Nat :=
  log.countP fun event => event.target == "signing_service::access"

/-- That what is seen of a call has exactly one access record once the call is over, in agreement
with what came of it, and none before. `own` is what the work of the call logs itself. -/
structure Observed.IsRecordedOnce {α : Type} (observed : Observed α) (call : Call)
    (own : List Event) : Prop where
  untouched : observed.progress = .untouched → observed.log = []
  pending : observed.progress = .pending → observed.log = own
  dropped : observed.progress = .dropped →
    ∃ record : Event, observed.log = own ++ [record] ∧
      record.IsRecordOf call 500 "call did not complete"
  succeeded : ∀ value, observed.progress = .ended (.ok value) →
    ∃ record : Event, observed.log = own ++ [record] ∧ record.IsRecordOf call call.success ""
  failed : ∀ error, observed.progress = .ended (.error error) →
    ∃ record : Event, observed.log = own ++ [record] ∧
      record.IsRecordOf call error.status error.message
  once : observed.progress.isOver → countAccess observed.log = countAccess own + 1

theorem Call.record_isRecordOf (call : Call) (status : Nat) (error : String) :
    (call.record status error).IsRecordOf call status error where
  target := rfl
  level := by
    simp only [record, Event.level, AccessRecord.isServerError, Bool.and_eq_true,
      decide_eq_true_eq]
  fields := by
    simp only [record, Event.fields, AccessRecord.fields]
    cases call.request? with
    | none => rfl
    | some request => rfl

theorem countAccess_append_record (own : List Event) (call : Call) (status : Nat)
    (error : String) :
    countAccess (own ++ [call.record status error]) = countAccess own + 1 := by
  rw [countAccess, List.countP_append]
  rfl

section Recorded

variable {α : Type} {call : Call} {task : Task SigningError α}

/-- A call that was never polled has no record. -/
theorem Observed.isRecordedOnce_of_untouched {own : List Event} :
    (⟨[], .untouched⟩ : Observed α).IsRecordedOnce call own :=
  ⟨fun _ => rfl, nofun, nofun, nofun, nofun, nofun⟩

/-- A call that has ended has the record of its result. -/
theorem Observed.isRecordedOnce_of_ended {own : List Event} (result : Except SigningError α) :
    (⟨own ++ [call.recordOf result], .ended result⟩ : Observed α).IsRecordedOnce call own := by
  cases result with
  | ok value =>
    exact ⟨nofun, nofun, nofun, fun _ _ => ⟨_, rfl, call.record_isRecordOf _ _⟩, nofun,
      fun _ => countAccess_append_record own call _ _⟩
  | error error =>
    refine ⟨nofun, nofun, nofun, nofun, ?_, fun _ => countAccess_append_record own call _ _⟩
    rintro _ ⟨⟩
    exact ⟨_, rfl, call.record_isRecordOf _ _⟩

/-- A call is recorded once while its caller goes on waiting. -/
theorem Observation.Reached.seen {polls : Nat} {observation : Observation α}
    (reached : Reached call task polls observation) :
    observation.seen.IsRecordedOnce call task.log := by
  cases reached with
  | unstarted => exact Observed.isRecordedOnce_of_untouched
  | running _ => exact ⟨nofun, fun _ => rfl, nofun, nofun, nofun, nofun⟩
  | finished _ _ => exact Observed.isRecordedOnce_of_ended _

/-- A call is recorded once when its caller drops it: a running call lets go of its blank guard. -/
theorem Observation.Reached.dropped {polls : Nat} {observation : Observation α}
    (reached : Reached call task polls observation) :
    observation.drop.seen.IsRecordedOnce call task.log := by
  cases reached with
  | unstarted => exact Observed.isRecordedOnce_of_untouched
  | running _ =>
    exact ⟨nofun, nofun, fun _ => ⟨_, rfl, call.record_isRecordOf _ _⟩, nofun, nofun,
      fun _ => countAccess_append_record _ call _ _⟩
  | finished _ _ => exact Observed.isRecordedOnce_of_ended _

theorem Call.observe_isRecordedOnce (call : Call) (task : Task SigningError α)
    (patience : Patience) : (call.observe task patience).IsRecordedOnce call task.log := by
  cases patience with
  | toTheEnd => exact (Observation.reached_after call task _).seen
  | polls count => exact (Observation.reached_after call task count).dropped

end Recorded

/-! ## What a task comes to -/

/-- What a task comes to when it is run as a call for a caller with some patience. -/
def Task.outcome {α : Type} (task : Task SigningError α) :
    Patience → Progress (Except SigningError α)
  | .toTheEnd =>
    match task.waits with
    | some _ => .ended task.ending.contain
    | none => .pending
  | .polls 0 => .untouched
  | .polls (polls + 1) =>
    match task.waits with
    | some waits => if waits ≤ polls then .ended task.ending.contain else .dropped
    | none => .dropped

section Outcome

variable {α : Type} (call : Call) (task : Task SigningError α)

/-- Only a caller without any patience leaves a task untouched. -/
theorem Task.outcome_eq_untouched_iff {patience : Patience} :
    task.outcome patience = .untouched ↔ patience = .polls 0 := by
  refine ⟨fun untouched => ?_, fun unpolled => ?_⟩
  · unfold outcome at untouched
    split at untouched
    · split at untouched <;> cases untouched
    · rfl
    · split at untouched
      · split at untouched <;> cases untouched
      · cases untouched
  · subst unpolled
    rfl

theorem Call.observe_toTheEnd_of_ends {waits : Nat} (ends : task.waits = some waits) :
    call.observe task .toTheEnd =
      ⟨task.log ++ [call.recordOf task.ending.contain], .ended task.ending.contain⟩ := by
  dsimp only [Call.observe]
  rw [Observation.after_of_due ends (by rw [ends]; exact Nat.le_refl _)]
  rfl

/-- What is seen of a call is what its task comes to. -/
theorem Call.observe_progress (patience : Patience) :
    (call.observe task patience).progress = task.outcome patience := by
  rcases patience with _ | _ | polls
  · cases ends : task.waits with
    | none =>
      have early : ∀ waits, task.waits = some waits → task.waits.getD 0 < waits := by
        rw [ends]
        exact nofun
      dsimp only [observe, Task.outcome]
      rw [Observation.after_of_early early, ends]
      rfl
    | some waits =>
      rw [observe_toTheEnd_of_ends call task ends, Task.outcome, ends]
  · rfl
  · dsimp only [observe, Task.outcome]
    rcases task.due_or_early polls with ⟨waits, ends, due⟩ | early
    · rw [Observation.after_of_due ends due, ends]
      exact (if_pos due).symm
    · rw [Observation.after_of_early early]
      cases ends : task.waits with
      | none => rfl
      | some waits => exact (if_neg (Nat.not_le.mpr (early waits ends))).symm

end Outcome

/-! ## The operations of a service -/

/-- What is seen of a request for an operation. -/
def Served.seen {α : Type} (served : Served (Except SigningError α)) : Observed α :=
  ⟨served.log, served.progress⟩

/-- What a signer logs itself when it is called, if it is called. -/
def Signer.logOf (signer : Signer) (history : List SignerCall) (call? : Option SignerCall) :
    List Event :=
  call?.elim [] fun call => (signer history call).log

/-- A plan logs nothing itself; the signer that it asks may. -/
theorem Plan.log_task {α : Type} (plan : Plan α) (signer : Signer) (asking : Asking) :
    (plan.task signer asking).log = signer.logOf asking.history (plan.call? asking) := by
  cases plan with
  | settled result => rfl
  | ask identifier question read => rfl

namespace Service

variable {α : Type} (service : Service) (asking : Asking) (call : Call) (plan : Plan α)
  {patience : Patience}

/-- A request that is not polled leaves no trace. -/
theorem perform_unpolled :
    service.perform asking call plan (.polls 0) = ⟨none, [], .untouched⟩ := rfl

/-- A request that is polled makes the call of its plan. -/
theorem perform_call?_of_polled (polled : patience ≠ .polls 0) :
    (service.perform asking call plan patience).call? = plan.call? asking := by
  have started :
      (call.observe (plan.task service.signer asking) patience).progress.isStarted := by
    rw [Call.observe_progress]
    have touched : (plan.task service.signer asking).outcome patience ≠ .untouched :=
      fun untouched => polled ((Task.outcome_eq_untouched_iff _).mp untouched)
    revert touched
    cases (plan.task service.signer asking).outcome patience with
    | untouched => exact fun touched => absurd rfl touched
    | dropped | pending | ended _ => exact fun _ => rfl
  exact if_pos started

/-- What comes of a request is what the task of its plan comes to. -/
theorem perform_progress (patience : Patience) :
    (service.perform asking call plan patience).progress =
      (plan.task service.signer asking).outcome patience :=
  call.observe_progress _ patience

/-- A request that is settled without the signer makes no call. -/
theorem perform_settled_call? (result : Except SigningError α) :
    (service.perform asking call (.settled result) patience).call? = none :=
  ite_self none

theorem perform_isRecordedOnce (patience : Patience) :
    (service.perform asking call plan patience).seen.IsRecordedOnce call
      (service.signer.logOf asking.history
        (service.perform asking call plan patience).call?) := by
  by_cases unpolled : patience = .polls 0
  · rw [unpolled, perform_unpolled]
    exact Observed.isRecordedOnce_of_untouched
  · rw [perform_call?_of_polled _ _ _ _ unpolled, ← plan.log_task]
    exact call.observe_isRecordedOnce _ _

theorem perform_settled_isRecordedOnce (result : Except SigningError α) (patience : Patience) :
    (service.perform asking call (.settled result) patience).seen.IsRecordedOnce call [] := by
  have recorded := service.perform_isRecordedOnce asking call (.settled result) patience
  rw [perform_settled_call?] at recorded
  exact recorded

end Service

/-- **Every call is recorded once, in agreement with its outcome.** A task that is run as a call
comes to what it ends in, a crash being an error that tells its message, or to nothing if it is
dropped before. However often it is polled, and whether it is then dropped or not, exactly one
access record tells of it once it is over, and none before. So it is for the operations of a service
with every signer. -/
theorem calls_are_recorded_once :
    (∀ {α : Type} (call : Call) (task : Task SigningError α),
      (∀ polls, (Observation.after call task polls).seen.IsRecordedOnce call task.log) ∧
      ∀ patience, (call.observe task patience).progress = task.outcome patience ∧
        (call.observe task patience).IsRecordedOnce call task.log) ∧
    ∀ (service : Service) (asking : Asking) (endpoint : Endpoint) (patience : Patience),
      (let listed := service.listKeys asking endpoint patience
       listed.progress = (Task.done (.value (service.policy.listing endpoint))).outcome patience ∧
         listed.seen.IsRecordedOnce (Operation.listKeys.call endpoint none) []) ∧
      (∀ key? : Option KeyReference,
        let answered := service.publicKey asking endpoint key? patience
        let plan := Plan.publicKey service.policy endpoint key?
        answered.progress = (plan.task service.signer asking).outcome patience ∧
          answered.seen.IsRecordedOnce (Operation.publicKey.call endpoint none)
            (service.signer.logOf asking.history answered.call?)) ∧
      (∀ request : SigningRequest,
        let signed := service.sign asking endpoint request patience
        let plan := Plan.sign service.policy endpoint request
        signed.progress = (plan.task service.signer asking).outcome patience ∧
          signed.seen.IsRecordedOnce
            (Operation.sign.call endpoint (some ⟨request.digest, request.hash⟩))
            (service.signer.logOf asking.history signed.call?)) ∧
      ∀ {α : Type} (operation : Operation) (reason : String),
        let refused : Served (Except SigningError α) :=
          service.reject asking endpoint operation reason patience
        let error : SigningError := .malformed (.malformedBody reason) endpoint
        refused.progress = (Task.done (.failed error)).outcome patience ∧
          refused.seen.IsRecordedOnce (operation.call endpoint none) [] := by
  refine ⟨fun call task => ⟨fun polls => ?_, fun patience => ?_⟩,
    fun service asking endpoint patience => ⟨?_, fun key? => ?_, fun request => ?_,
      fun operation reason => ?_⟩⟩
  · exact (Observation.reached_after call task polls).seen
  · exact ⟨call.observe_progress task patience, call.observe_isRecordedOnce task patience⟩
  · exact ⟨service.perform_progress _ _ _ _, service.perform_settled_isRecordedOnce _ _ _ _⟩
  · exact ⟨service.perform_progress _ _ _ _, service.perform_isRecordedOnce _ _ _ _⟩
  · exact ⟨service.perform_progress _ _ _ _, service.perform_isRecordedOnce _ _ _ _⟩
  · exact ⟨service.perform_progress _ _ _ _, service.perform_settled_isRecordedOnce _ _ _ _⟩

end Signet
