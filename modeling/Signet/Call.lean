import Signet.SigningError
import Signet.Task

/-!
# Observed calls

Every call is observed: when it is over, one access record is logged, whether it succeeded, failed,
crashed or was dropped before its end. A crash is contained and becomes an error of the call.

From the first poll of a call to its end a guard is kept with it. What the call has come to is noted
on the guard before the guard is let go, and the guard writes the record as it goes. A call that is
dropped lets go of its guard with nothing noted on it.
-/

namespace Signet

/-- What is known about a call before it runs. -/
structure Call where
  method : String
  success : Nat
  request? : Option RequestFields := none
  deriving DecidableEq, Repr

/-- The result that a call gives its caller for an ending: a crash is an error, too. -/
def Ending.contain {α : Type} : Ending SigningError α → Except SigningError α
  | .value result => .ok result
  | .failed error => .error error
  | .crashed crash => .error (.crash crash.message)

namespace Call

/-- What an access record says about a call that was dropped before its end. -/
def incompleteMessage : String :=
  "call did not complete"

/-- The access record of a call with some status and error text. -/
def record (call : Call) (status : Nat) (error : String) : Event :=
  .access ⟨call.method, call.request?, status, error⟩

end Call

/-! ## Guards -/

/-- What is kept with a call while it runs. -/
structure Guard where
  call : Call
  /-- The status and the error text that the call has come to, if that has been noted. -/
  outcome? : Option (Nat × String) := none

namespace Guard

def note {α : Type} (guard : Guard) : Except SigningError α → Guard
  | .ok _ => { guard with outcome? := some (guard.call.success, "") }
  | .error error => { guard with outcome? := some (error.status, error.message) }

/-- The record that a guard writes when it is let go. -/
def release (guard : Guard) : Event :=
  match guard.outcome? with
  | some (status, error) => guard.call.record status error
  | none => guard.call.record 500 Call.incompleteMessage

end Guard

/-! ## Polls -/

/-- Where a call stands between two polls. A running call has its guard and has been polled some
number of times. -/
inductive Stage (α : Type)
  | unstarted
  | running (guard : Guard) (polls : Nat)
  | finished (result : Except SigningError α)
  | abandoned

def Stage.progress {α : Type} : Stage α → Progress (Except SigningError α)
  | unstarted => .untouched
  | running .. => .pending
  | finished result => .ended result
  | abandoned => .dropped

/-- A call under observation: where it stands, and what has been logged so far. -/
structure Observation (α : Type) where
  log : List Event := []
  stage : Stage α := .unstarted

namespace Observation

variable {α : Type}

/-- Polls the task of a running call. If the task ends, its result is noted on the guard, and the
guard is let go. -/
def advance (observation : Observation α) (task : Task SigningError α) (guard : Guard)
    (polls : Nat) : Observation α :=
  let log := observation.log ++ task.logOf polls
  match task.poll polls with
  | .pending => ⟨log, .running guard (polls + 1)⟩
  | .ready ending =>
    let result := ending.contain
    ⟨log ++ [(guard.note result).release], .finished result⟩

/-- Polls a call. The first poll puts the guard up. A call that is over is not polled any more. -/
def poll (observation : Observation α) (call : Call) (task : Task SigningError α) :
    Observation α :=
  match observation.stage with
  | .unstarted => observation.advance task { call } 0
  | .running guard polls => observation.advance task guard polls
  | .finished _ | .abandoned => observation

/-- Drops a call: if it is running, its guard is let go. -/
def drop (observation : Observation α) : Observation α :=
  match observation.stage with
  | .running guard _ => ⟨observation.log ++ [guard.release], .abandoned⟩
  | .unstarted | .finished _ | .abandoned => observation

def after (call : Call) (task : Task SigningError α) : (polls : Nat) → Observation α
  | 0 => {}
  | polls + 1 => (after call task polls).poll call task

end Observation

/-- What can be seen of a call: its log, and what came of it. -/
structure Observed (α : Type) where
  log : List Event
  progress : Progress (Except SigningError α)

def Observation.seen {α : Type} (observation : Observation α) : Observed α :=
  ⟨observation.log, observation.stage.progress⟩

/-- Runs a task as a call. To the end it is polled as often as the task takes; a task that never
ends is polled once, and further polls would change nothing. -/
def Call.observe {α : Type} (call : Call) (task : Task SigningError α) : Patience → Observed α
  | .toTheEnd => (Observation.after call task (task.waits.getD 0 + 1)).seen
  | .polls count => (Observation.after call task count).drop.seen

end Signet
