import Signet.Ending
import Signet.Event

/-!
# Tasks and patience

A task is work that its caller polls. At its first poll it starts and writes its log; it is pending
some number of times, or for ever, and ends at the poll after. The caller polls until the end, or
gives up after a number of polls and drops the task.
-/

namespace Signet

/-- Work that is started by its first poll. -/
structure Task (ε α : Type) where
  /-- What it logs when it starts. -/
  log : List Event
  /-- How often it is pending before it ends; nothing if it never ends. -/
  waits : Option Nat
  /-- How it ends, if it does. -/
  ending : Ending ε α

/-- What a poll finds: nothing yet, or what has been waited for. -/
inductive Poll (α : Type)
  | pending
  | ready (result : α)
  deriving DecidableEq, Repr

/-- How long the caller of a task polls it. -/
inductive Patience
  | toTheEnd
  | polls (count : Nat)
  deriving DecidableEq, Repr

/-- What came of something that was polled: it was never started, it was dropped before its end, it
is still pending, or it has ended. -/
inductive Progress (α : Type)
  | untouched
  | dropped
  | pending
  | ended (result : α)
  deriving DecidableEq, Repr

namespace Progress

def map {α β : Type} (convert : α → β) : Progress α → Progress β
  | untouched => untouched
  | dropped => dropped
  | pending => pending
  | ended result => ended (convert result)

def isStarted {α : Type} : Progress α → Bool
  | untouched => false
  | dropped | pending | ended _ => true

/-- Whether nothing more will happen, because it ended or was dropped. -/
def isOver {α : Type} : Progress α → Bool
  | untouched | pending => false
  | dropped | ended _ => true

end Progress

namespace Task

variable {ε φ α β : Type}

/-- A task that ends at once. -/
def done (ending : Ending ε α) : Task ε α :=
  ⟨[], some 0, ending⟩

def mapEnding (convert : Ending ε α → Ending φ β) (task : Task ε α) : Task φ β :=
  ⟨task.log, task.waits, convert task.ending⟩

/-- What a task logs in a poll, if it has been polled some number of times before. -/
def logOf (task : Task ε α) (polls : Nat) : List Event :=
  if polls = 0 then task.log else []

/-- What a poll of a task finds, if it has been polled some number of times before. -/
def poll (task : Task ε α) (polls : Nat) : Poll (Ending ε α) :=
  match task.waits with
  | some waits => if waits ≤ polls then .ready task.ending else .pending
  | none => .pending

end Task

end Signet
