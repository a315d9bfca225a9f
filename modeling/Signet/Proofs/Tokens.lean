import Signet.Proofs.Steps

/-!
# Tokens

The handler of a request makes a token, keeps it with a guard, and lends it to the signer; when the
handler is over, the guard is let go and the token is cancelled. `Handler` says this poll by poll:
the guard is up before the call is made and goes behind the record of the call, and `Handler.Guards`
is what every poll and a drop keep. What a session cancels in a step is what the guard of such a
handler cancels (`Session.Performs.cancelled_eq_run`).

Over whole sessions the tokens of requests are told apart by their numbers. A request takes the
number of requests before it, so no token with its number or a later one is cancelled yet
(`Session.CancelsEarlier.afterAll`), its token is in no other call
(`Session.requests_of_mem_callsOf`), and nothing else that happens can cancel it. The tokens of
callers are cancelled by callers alone (`Session.isCancelled_ofCaller_afterAll`).
-/

namespace Signet

/-! ## The guard of a token -/

/-- The handler of a request between two polls: the call that it makes, the token that its guard
holds, if it is up, and all tokens that are cancelled. -/
structure Handler (α : Type) where
  observation : Observation α := {}
  held? : Option Token := none
  cancelled : List Token

namespace Handler

variable {α : Type}

/-- Lets go of the guard, which cancels the token that it holds. -/
def release (handler : Handler α) : Handler α :=
  { handler with held? := none, cancelled := handler.held?.toList ++ handler.cancelled }

/-- Polls a handler. The first poll puts the guard up, before the call is polled. If the call ends,
it is recorded, and then the guard is let go. -/
def poll (handler : Handler α) (token : Token) (call : Call) (task : Task SigningError α) :
    Handler α :=
  let held? := match handler.observation.stage with
    | .unstarted => some token
    | .running .. | .finished _ | .abandoned => handler.held?
  let polled : Handler α :=
    { handler with observation := handler.observation.poll call task, held? }
  match polled.observation.stage with
  | .finished _ => polled.release
  | .unstarted | .running .. | .abandoned => polled

/-- Drops a handler: first its call, which is recorded if it is running, and then its guard. -/
def drop (handler : Handler α) : Handler α :=
  ({ handler with observation := handler.observation.drop } : Handler α).release

section Run

variable (token : Token) (call : Call) (task : Task SigningError α) (cancelled : List Token)

def after : (polls : Nat) → Handler α
  | 0 => { cancelled }
  | polls + 1 => (after polls).poll token call task

/-- Runs a handler, as often as its call is polled. -/
def run : Patience → Handler α
  | .toTheEnd => after token call task cancelled (task.waits.getD 0 + 1)
  | .polls count => (after token call task cancelled count).drop

end Run

/-- Where a handler can stand: its guard is up while its call is running, and its token is cancelled
when its call is over, and not before. -/
inductive Guards (token : Token) (cancelled : List Token) : Handler α → Prop
  | unstarted {log : List Event} :
    Guards token cancelled ⟨⟨log, .unstarted⟩, none, cancelled⟩
  | running {log : List Event} {guard : Guard} {polls : Nat} :
    Guards token cancelled ⟨⟨log, .running guard polls⟩, some token, cancelled⟩
  | finished {log : List Event} {result : Except SigningError α} :
    Guards token cancelled ⟨⟨log, .finished result⟩, none, token :: cancelled⟩
  | abandoned {log : List Event} :
    Guards token cancelled ⟨⟨log, .abandoned⟩, none, token :: cancelled⟩

variable {token : Token} {call : Call} {task : Task SigningError α} {cancelled : List Token}
  {handler : Handler α}

theorem release_observation (handler : Handler α) :
    handler.release.observation = handler.observation := rfl

theorem poll_observation :
    (handler.poll token call task).observation = handler.observation.poll call task := by
  unfold poll
  dsimp only
  split
  · rfl
  · rfl
  · rfl
  · rfl

/-- A poll keeps the guard of a handler as it should be. -/
theorem Guards.poll (guards : Guards token cancelled handler) :
    Guards token cancelled (handler.poll token call task) := by
  cases guards with
  | unstarted =>
    unfold Handler.poll Observation.poll Observation.advance
    dsimp only
    cases task.poll 0 with
    | pending => exact .running
    | ready ending => exact .finished
  | @running log guard polls =>
    unfold Handler.poll Observation.poll Observation.advance
    dsimp only
    cases task.poll polls with
    | pending => exact .running
    | ready ending => exact .finished
  | finished => exact .finished
  | abandoned => exact .abandoned

/-- Whenever a handler is dropped, its token is cancelled if it was made. -/
theorem Guards.drop (guards : Guards token cancelled handler) :
    Guards token cancelled handler.drop := by
  cases guards with
  | unstarted => exact .unstarted
  | running => exact .abandoned
  | finished => exact .finished
  | abandoned => exact .abandoned

theorem guards_after (token : Token) (call : Call) (task : Task SigningError α)
    (cancelled : List Token) (polls : Nat) :
    Guards token cancelled (after token call task cancelled polls) := by
  induction polls with
  | zero => exact .unstarted
  | succ polls ih => exact ih.poll

theorem guards_run (token : Token) (call : Call) (task : Task SigningError α)
    (cancelled : List Token) (patience : Patience) :
    Guards token cancelled (run token call task cancelled patience) := by
  cases patience with
  | toTheEnd => exact guards_after token call task cancelled _
  | polls count => exact (guards_after token call task cancelled count).drop

theorem after_observation (polls : Nat) :
    (after token call task cancelled polls).observation = Observation.after call task polls := by
  induction polls with
  | zero => rfl
  | succ polls ih =>
    unfold after Observation.after
    rw [poll_observation, ih]

/-- A handler shows of its call what any observer sees of it. -/
theorem run_seen (patience : Patience) :
    (run token call task cancelled patience).observation.seen = call.observe task patience := by
  cases patience with
  | toTheEnd =>
    unfold run Call.observe
    dsimp only
    rw [after_observation]
  | polls count =>
    unfold run Call.observe drop
    dsimp only
    rw [release_observation, after_observation]

theorem Guards.cancelled_eq (guards : Guards token cancelled handler) :
    handler.cancelled =
      if handler.observation.stage.progress.isOver then token :: cancelled else cancelled := by
  cases guards with
  | unstarted | running | finished | abandoned => rfl

/-- A handler that has been run has cancelled its token if its call is over, and nothing else. -/
theorem run_cancelled (patience : Patience) :
    (run token call task cancelled patience).cancelled =
      if (task.outcome patience).isOver then token :: cancelled else cancelled := by
  have seen : (run token call task cancelled patience).observation.stage.progress =
      task.outcome patience := by
    have observed : (run token call task cancelled patience).observation.seen =
        call.observe task patience := run_seen patience
    exact (congrArg Observed.progress observed).trans (Call.observe_progress _ _ patience)
  rw [(guards_run token call task cancelled patience).cancelled_eq, seen]

end Handler

/-! ## Steps -/

/-- The token that a caller hands over for a step that is asked for directly. -/
def Step.callersToken? : Step → Option Nat
  | .publicKey _ _ token | .sign _ _ token => some token
  | .listKeys _ | .reject .. | .request _ | .cancel _ => none

/-- What is polled is over, unless it never ends and is never dropped. -/
theorem Task.isOver_outcome_iff {α : Type} {task : Task SigningError α} {patience : Patience}
    (polled : patience ≠ .polls 0) :
    (task.outcome patience).isOver = true ↔ patience ≠ .toTheEnd ∨ task.waits ≠ none := by
  unfold outcome
  rcases patience with _ | _ | polls
  · cases ends : task.waits with
    | none => exact ⟨nofun, fun due => due.elim (absurd rfl) (absurd rfl)⟩
    | some waits => exact ⟨fun _ => Or.inr nofun, fun _ => rfl⟩
  · exact absurd rfl polled
  · refine ⟨fun _ => Or.inl nofun, fun _ => ?_⟩
    cases ends : task.waits with
    | none => rfl
    | some waits =>
      dsimp only
      split
      · rfl
      · rfl

namespace Session

variable {policy : Policy} {service : Service} {session : Session} {step : Step}
  {patience : Patience} {number : Nat}

theorem isCancelled_iff {token : Token} :
    session.isCancelled token = true ↔ token ∈ session.cancelled :=
  List.contains_iff_mem

/-- A step counts if it is a request. -/
theorem requests_step (service : Service) (session : Session) (step : Step) (patience : Patience) :
    (session.step service step patience).2.requests =
      match step with
      | .request _ => session.requests + 1
      | .listKeys _ | .publicKey .. | .sign .. | .reject .. | .cancel _ => session.requests := by
  rw [step_snd]
  cases step with
  | request request =>
    unfold after
    dsimp only
    split
    · rfl
    · rfl
  | listKeys _ | publicKey _ _ _ | sign _ _ _ | reject _ _ _ | cancel _ => rfl

/-- What a step cancels: a request its own token when it is over, and a caller the token of the
caller. -/
theorem cancelled_step (service : Service) (session : Session) (step : Step) (patience : Patience) :
    (session.step service step patience).2.cancelled =
      match step with
      | .request _ =>
        if (session.step service step patience).1.progress.isOver then
          session.requestToken :: session.cancelled
        else session.cancelled
      | .cancel token => .ofCaller token :: session.cancelled
      | .listKeys _ | .publicKey .. | .sign .. | .reject .. => session.cancelled := by
  rw [step_snd]
  cases step with
  | request request =>
    unfold after
    dsimp only
    split
    · rfl
    · rfl
  | listKeys _ | publicKey _ _ _ | sign _ _ _ | reject _ _ _ | cancel _ => rfl

/-- Requests do what a guarded handler does: what is cancelled after a request that carries out a
plan is what its handler has cancelled. -/
theorem Performs.cancelled_eq_run {α : Type} {request : Http.Request} {call : Call}
    {plan : Plan α} {answer : Except SigningError α → Answer}
    (performs : session.Performs policy (.request request) patience call plan answer)
    (signer : Signer) :
    (session.step ⟨policy, signer⟩ (.request request) patience).2.cancelled =
      (Handler.run session.requestToken call
        (plan.task signer (session.asking session.requestToken)) session.cancelled
        patience).cancelled := by
  have isOver : (session.step ⟨policy, signer⟩ (.request request) patience).1.progress.isOver =
      ((plan.task signer (session.asking session.requestToken)).outcome patience).isOver := by
    rw [performs.performs]
    refine (Progress.isOver_map answer _).trans ?_
    rw [Service.perform_progress]
    rfl
  rw [cancelled_step, Handler.run_cancelled, isOver]

/-- The tokens of callers are cancelled by callers. -/
theorem isCancelled_ofCaller_step (service : Service) (session : Session) (step : Step)
    (patience : Patience) :
    (session.step service step patience).2.isCancelled (.ofCaller number) = true ↔
      session.isCancelled (.ofCaller number) = true ∨ step = .cancel number := by
  rw [isCancelled_iff, isCancelled_iff, cancelled_step]
  cases step with
  | request request =>
    dsimp only
    rw [or_iff_left nofun]
    split
    · exact List.mem_cons.trans (or_iff_right nofun)
    · exact Iff.rfl
  | cancel token =>
    dsimp only
    rw [List.mem_cons, Or.comm, Token.ofCaller.injEq, Step.cancel.injEq, @eq_comm _ number token]
  | listKeys _ | publicKey _ _ _ | sign _ _ _ | reject _ _ _ =>
    exact (or_iff_left nofun).symm

/-- The token of a request is cancelled by this request, when it is over. -/
theorem isCancelled_ofRequest_step (service : Service) (session : Session) (step : Step)
    (patience : Patience) :
    (session.step service step patience).2.isCancelled (.ofRequest number) = true ↔
      session.isCancelled (.ofRequest number) = true ∨
        (number = session.requests ∧ (∃ request, step = .request request) ∧
          (session.step service step patience).1.progress.isOver = true) := by
  rw [isCancelled_iff, isCancelled_iff, cancelled_step]
  cases step with
  | request request =>
    dsimp only
    by_cases isOver : (session.step service (.request request) patience).1.progress.isOver = true
    · rw [if_pos isOver, List.mem_cons, Or.comm]
      refine or_congr_right ⟨fun same => ?_, fun same => ?_⟩
      · cases same
        exact ⟨rfl, ⟨request, rfl⟩, isOver⟩
      · rw [same.1]
        rfl
    · rw [if_neg isOver, or_iff_left fun isOwn => isOver isOwn.2.2]
  | cancel token =>
    exact List.mem_cons.trans
      ((or_iff_right nofun).trans (or_iff_left fun isRequest => nomatch isRequest.2.1).symm)
  | listKeys _ | publicKey _ _ _ | sign _ _ _ | reject _ _ _ =>
    exact (or_iff_left fun isRequest => nomatch isRequest.2.1).symm

/-- The signer is lent the token of the step, as it is. -/
theorem lent_of_step {call : SignerCall}
    (called : call ∈ (session.step service step patience).1.call?) :
    call.token = step.tokenIn session ∧
      call.isCancelled = session.isCancelled (step.tokenIn session) :=
  (((session.step_gated service.policy step patience).asks service.signer call).mp called).2.2

/-- Only requests lend tokens of requests, and each its own. -/
theorem eq_requests_of_step {call : SignerCall}
    (called : call ∈ (session.step service step patience).1.call?)
    (isRequest : call.token = .ofRequest number) :
    number = session.requests ∧ ∃ request, step = .request request := by
  have lent := (lent_of_step called).1.symm.trans isRequest
  cases step with
  | request request =>
    cases lent
    exact ⟨rfl, request, rfl⟩
  | listKeys _ | publicKey _ _ _ | sign _ _ _ | reject _ _ _ | cancel _ => exact nomatch lent

/-! ## Runs -/

/-- The session after a list of steps. -/
def afterAll (service : Service) : Session → List (Step × Patience) → Session
  | session, [] => session
  | session, (next, patience) :: steps =>
    afterAll service (session.step service next patience).2 steps

theorem afterAll_append (service : Service) (session : Session)
    (earlier later : List (Step × Patience)) :
    session.afterAll service (earlier ++ later) =
      (session.afterAll service earlier).afterAll service later := by
  induction earlier generalizing session with
  | nil => rfl
  | cons taken earlier ih => exact ih _

theorem trace_append (service : Service) (session : Session)
    (earlier later : List (Step × Patience)) :
    session.trace service (earlier ++ later) =
      session.trace service earlier ++ (session.afterAll service earlier).trace service later := by
  induction earlier generalizing session with
  | nil => rfl
  | cons taken earlier ih => exact congrArg (List.cons _) (ih _)

/-- In a run, the tokens of callers are cancelled by callers. -/
theorem isCancelled_ofCaller_afterAll (service : Service) (session : Session)
    (steps : List (Step × Patience)) :
    (session.afterAll service steps).isCancelled (.ofCaller number) = true ↔
      session.isCancelled (.ofCaller number) = true ∨
        .cancel number ∈ steps.map Prod.fst := by
  induction steps generalizing session with
  | nil => exact (or_iff_left List.not_mem_nil).symm
  | cons taken steps ih =>
    unfold afterAll
    rw [ih, isCancelled_ofCaller_step, List.map_cons, List.mem_cons, or_assoc,
      @eq_comm _ (Step.cancel number) taken.1]

theorem requests_le_step (service : Service) (session : Session) (step : Step)
    (patience : Patience) :
    session.requests ≤ (session.step service step patience).2.requests := by
  rw [requests_step]
  cases step with
  | request _ => exact Nat.le_succ _
  | listKeys _ | publicKey _ _ _ | sign _ _ _ | reject _ _ _ | cancel _ => exact Nat.le_refl _

theorem requests_le_afterAll (service : Service) (session : Session)
    (steps : List (Step × Patience)) :
    session.requests ≤ (session.afterAll service steps).requests := by
  induction steps generalizing session with
  | nil => exact Nat.le_refl _
  | cons taken steps ih => exact Nat.le_trans (requests_le_step service session _ _) (ih _)

/-- What becomes of the token of a request is settled by this request: later steps leave it as it
is. -/
theorem isCancelled_ofRequest_afterAll (service : Service) (session : Session)
    (steps : List (Step × Patience)) (earlier : number < session.requests) :
    (session.afterAll service steps).isCancelled (.ofRequest number) = true ↔
      session.isCancelled (.ofRequest number) = true := by
  induction steps generalizing session with
  | nil => exact Iff.rfl
  | cons taken steps ih =>
    unfold afterAll
    rw [ih _ (Nat.lt_of_lt_of_le earlier (requests_le_step service session _ _)),
      isCancelled_ofRequest_step, or_iff_left fun isOwn => Nat.ne_of_lt earlier isOwn.1]

/-- That all tokens of requests that are cancelled are those of earlier requests. -/
def CancelsEarlier (session : Session) : Prop :=
  ∀ number, session.isCancelled (.ofRequest number) = true → number < session.requests

theorem CancelsEarlier.after_step (cancels : session.CancelsEarlier) (service : Service)
    (step : Step)
    (patience : Patience) : (session.step service step patience).2.CancelsEarlier := by
  intro number isCancelled
  rcases (isCancelled_ofRequest_step service session step patience).mp isCancelled with
    before | ⟨isOwn, ⟨request, isRequest⟩, -⟩
  · exact Nat.lt_of_lt_of_le (cancels number before)
      (requests_le_step service session step patience)
  · rw [isOwn, requests_step, isRequest]
    exact Nat.lt_succ_self _

theorem CancelsEarlier.afterAll (cancels : session.CancelsEarlier) (service : Service)
    (steps : List (Step × Patience)) : (session.afterAll service steps).CancelsEarlier := by
  induction steps generalizing session with
  | nil => exact cancels
  | cons taken steps ih => exact ih (cancels.after_step service _ _)

theorem callsOf_append (trace other : List (Served Answer × Session)) :
    callsOf (trace ++ other) = callsOf trace ++ callsOf other :=
  List.filterMap_append

/-- The tokens of requests that are lent in a run are those of the requests of this run. -/
theorem requests_of_mem_callsOf {call : SignerCall} {steps : List (Step × Patience)}
    (called : call ∈ callsOf (session.trace service steps))
    (isRequest : call.token = .ofRequest number) :
    session.requests ≤ number ∧ number < (session.afterAll service steps).requests := by
  induction steps generalizing session with
  | nil => exact absurd called List.not_mem_nil
  | cons taken steps ih =>
    rw [trace_cons, callsOf_cons, List.mem_append, Option.mem_toList] at called
    rcases called with first | later
    · obtain ⟨isOwn, request, isFirst⟩ := eq_requests_of_step first isRequest
      refine ⟨Nat.le_of_eq isOwn.symm,
        Nat.lt_of_lt_of_le ?_ (requests_le_afterAll service _ steps)⟩
      rw [requests_step, isFirst, isOwn]
      exact Nat.lt_succ_self _
    · obtain ⟨least, most⟩ := ih later
      exact ⟨Nat.le_trans (requests_le_step service session _ _) least, most⟩

/-! ## The life of a token -/

/-- A handler that carries out what a step of a session has done: it waits for the signer as long as
the signer takes for a call, it logs what the step has logged, and it cancels what the session has
cancelled. -/
structure IsHandledBy (session : Session) (service : Service) (taken : Step × Patience)
    (call : SignerCall) {α : Type} (recorded : Call) (task : Task SigningError α) : Prop where
  waits : task.waits = (service.signer session.history call).waits
  log : (session.step service taken.1 taken.2).1.log =
    (Handler.run call.token recorded task session.cancelled taken.2).observation.log
  cancelled : (session.step service taken.1 taken.2).2.cancelled =
    (Handler.run call.token recorded task session.cancelled taken.2).cancelled

/-- A request that calls the signer is handled with a guard on the token that it lends. -/
theorem exists_isHandledBy {request : Http.Request} {call : SignerCall}
    (called : call ∈ (session.step service (.request request) patience).1.call?) :
    ∃ (α : Type) (recorded : Call) (task : Task SigningError α),
      session.IsHandledBy service (.request request, patience) call recorded task := by
  have lent : call.token = session.requestToken := (lent_of_step called).1
  rcases session.step_performs service.policy (.request request) patience with
    ⟨progress, noTrace⟩ | ⟨α, recorded, plan, answer, performs⟩
  · rw [noTrace service.signer] at called
    exact nomatch called
  · rw [performs.performs service.signer] at called
    have polled : patience ≠ .polls 0 := by
      rintro rfl
      exact nomatch called
    have asks : plan.call? (session.asking session.requestToken) = some call :=
      (Service.perform_call?_of_polled service _ recorded plan polled).symm.trans called
    refine ⟨α, recorded,
      plan.task service.signer (session.asking session.requestToken), ?_, ?_, ?_⟩
    · cases plan with
      | settled result => exact nomatch asks
      | ask identifier question read =>
        cases asks
        rfl
    · rw [performs.performs service.signer, lent]
      exact (congrArg Observed.log (Handler.run_seen patience)).symm
    · rw [lent]
      exact performs.cancelled_eq_run service.signer

/-- The life of the token that a request lends to the signer with a call, in a run that takes the
request after some other steps: it is not cancelled when it is lent, it is cancelled from then on if
the handler of the request is over, and it is in no other call. -/
structure OwnsToken (service : Service) (earlier : List (Step × Patience))
    (taken : Step × Patience) (call : SignerCall) : Prop where
  uncancelled : call.isCancelled = false
  handled : ∃ (α : Type) (recorded : Call) (task : Task SigningError α),
    (({} : Session).afterAll service earlier).IsHandledBy service taken call recorded task
  cancelled : ∀ later : List (Step × Patience),
    (({} : Session).afterAll service (earlier ++ taken :: later)).isCancelled call.token = true ↔
      taken.2 ≠ .toTheEnd ∨
        (service.signer (({} : Session).afterAll service earlier).history call).waits ≠ none
  unshared : ∀ later : List (Step × Patience), ∃ before after,
    callsOf (({} : Session).trace service (earlier ++ taken :: later)) = before ++ call :: after ∧
      ∀ other ∈ before ++ after, other.token ≠ call.token

theorem cancelsEarlier_empty : ({} : Session).CancelsEarlier :=
  fun _ isCancelled => nomatch isCancelled

/-- The token that a request lends lives as long as the handler of the request. -/
theorem ownsToken (service : Service) (earlier : List (Step × Patience)) {request : Http.Request}
    {patience : Patience} {call : SignerCall}
    (called : call ∈ ((({} : Session).afterAll service earlier).step service (.request request)
      patience).1.call?) :
    OwnsToken service earlier (.request request, patience) call := by
  obtain ⟨lent, asIs⟩ := lent_of_step called
  have polled : patience ≠ .polls 0 :=
    (((step_gated _ service.policy _ patience).asks service.signer call).mp called).1
  have cancelsEarlier := cancelsEarlier_empty.afterAll service earlier
  have handled := exists_isHandledBy called
  generalize isBefore : ({} : Session).afterAll service earlier = session at *
  have isOwn : call.token = .ofRequest session.requests := lent
  have isNew : session.isCancelled (.ofRequest session.requests) = false :=
    Bool.eq_false_iff.mpr fun isCancelled => Nat.lt_irrefl _ (cancelsEarlier _ isCancelled)
  have next : (session.step service (.request request) patience).2.requests =
      session.requests + 1 :=
    requests_step service session _ patience
  have split (later : List (Step × Patience)) :
      ({} : Session).afterAll service (earlier ++ (.request request, patience) :: later) =
        (session.step service (.request request) patience).2.afterAll service later := by
    rw [afterAll_append, isBefore]
    rfl
  refine ⟨asIs.trans isNew, isBefore ▸ handled, fun later => ?_, fun later => ?_⟩
  · obtain ⟨α, recorded, task, isHandled⟩ := handled
    rw [split, isOwn, isCancelled_ofRequest_afterAll service _ later (next ▸ Nat.lt_succ_self _),
      isCancelled_iff, isHandled.cancelled, isOwn, Handler.run_cancelled, isBefore,
      ← isHandled.waits, ← Task.isOver_outcome_iff polled]
    by_cases isOver : (task.outcome patience).isOver = true
    · rw [if_pos isOver]
      exact iff_of_true (.head _) isOver
    · rw [if_neg isOver, ← isCancelled_iff, isNew]
      exact iff_of_false nofun isOver
  · refine ⟨callsOf (({} : Session).trace service earlier),
      callsOf ((session.step service (.request request) patience).2.trace service later), ?_, ?_⟩
    · rw [trace_append, callsOf_append, isBefore, trace_cons, callsOf_cons, called]
      rfl
    · intro other isOther same
      rcases List.mem_append.mp isOther with before | after
      · have earlierOnly := (requests_of_mem_callsOf before (same.trans isOwn)).2
        rw [isBefore] at earlierOnly
        exact Nat.lt_irrefl _ earlierOnly
      · have laterOnly := (requests_of_mem_callsOf after (same.trans isOwn)).1
        rw [next] at laterOnly
        exact Nat.not_succ_le_self _ laterOnly

/-- **The life of tokens.** In every run, whatever the signer does: the token that a request lends
to the signer is not cancelled then, it is in no other call, and it is cancelled as soon as the
handler of the request is over: whether the signer answers, fails or crashes, or the handler is
dropped after some polls. Only a handler that waits for a signer that never answers is never over.
When an operation is asked for directly, the signer is lent the token of the caller as it is, and no
token of a caller is cancelled but by the caller. -/
theorem tokens_live_with_their_owners (service : Service) (earlier : List (Step × Patience))
    (step : Step) (patience : Patience) :
    let before := ({} : Session).afterAll service earlier
    let answered := before.step service step patience
    (∀ request, step = .request request → ∀ call ∈ answered.1.call?,
      OwnsToken service earlier (step, patience) call) ∧
    (∀ token, step.callersToken? = some token → ∀ call ∈ answered.1.call?,
      call.token = .ofCaller token ∧
        (call.isCancelled = true ↔ .cancel token ∈ earlier.map Prod.fst)) ∧
    (∀ token, answered.2.isCancelled (.ofCaller token) = true ↔
      .cancel token ∈ earlier.map Prod.fst ∨ step = .cancel token) := by
  intro before answered
  have ofCaller (token : Nat) : before.isCancelled (.ofCaller token) = true ↔
      .cancel token ∈ earlier.map Prod.fst :=
    (isCancelled_ofCaller_afterAll service {} earlier).trans (or_iff_right nofun)
  refine ⟨?_, fun token isCallers call called => ?_, fun token => ?_⟩
  · rintro request rfl call called
    exact ownsToken service earlier called
  · obtain ⟨lent, asIs⟩ := lent_of_step called
    have isCallers : step.tokenIn before = .ofCaller token := by
      cases step with
      | publicKey _ _ _ | sign _ _ _ =>
        cases isCallers
        rfl
      | listKeys _ | reject _ _ _ | request _ | cancel _ => exact nomatch isCallers
    rw [isCallers] at lent asIs
    rw [← ofCaller, ← asIs]
    exact ⟨lent, Iff.rfl⟩
  · rw [← ofCaller]
    exact isCancelled_ofCaller_step service before step patience

/-- A handler that gives up on a signer that never answers cancels its token, and leaves the token
alone that a caller has cancelled before. -/
theorem tokens_live_with_their_owners_who_give_up :
    let service : Service :=
      ⟨Policy.ofEntries [(.blob, ["key"])], fun _ _ => ⟨[], none, .value []⟩⟩
    let request : Http.Request :=
      ⟨"POST", "/v1/sig/blob/key", [("Content-Type", "application/json")],
      Octets.ofText "\x7b\"identifier\":\"key\"\x7d"⟩
    let before := ({} : Session).afterAll service [(.cancel 7, .toTheEnd)]
    let answered := before.step service (.request request) (.polls 3)
    (∃ call ∈ answered.1.call?, call.token = .ofRequest 0 ∧ call.isCancelled = false ∧
      answered.2.isCancelled call.token = true) ∧
    answered.2.isCancelled (.ofCaller 7) = true ∧ answered.2.isCancelled (.ofCaller 8) = false ∧
    ∀ call ∈ (answered.2.step service (.publicKey .blob (some ⟨"key"⟩) 7)
      (.polls 1)).1.call?, call.token = .ofCaller 7 ∧ call.isCancelled = true := by
  intro service request before answered
  have called : answered.1.call? = some ⟨.publicKey, "key", .ofRequest 0, false⟩ := by
    decide +kernel
  obtain ⟨ofRequests, -, ofCallers⟩ :=
    tokens_live_with_their_owners service [(.cancel 7, .toTheEnd)] (.request request) (.polls 3)
  have owns := ofRequests request rfl _ called
  refine ⟨⟨_, called, rfl, owns.uncancelled, (owns.cancelled []).mpr (Or.inl nofun)⟩, ?_, ?_,
    ?_⟩
  · exact (ofCallers 7).mpr (Or.inl (.head _))
  · exact Bool.eq_false_iff.mpr fun isCancelled =>
      ((ofCallers 8).mp isCancelled).elim (fun member => nomatch List.mem_singleton.mp member) nofun
  · intro call isCall
    obtain ⟨lent, asIs⟩ := (tokens_live_with_their_owners service
      [(.cancel 7, .toTheEnd), (.request request, .polls 3)] _ (.polls 1)).2.1 7 rfl call isCall
    exact ⟨lent, asIs.mpr (.head _)⟩

end Session

end Signet
