import Signet.Failure

/-!
# Endings

Work that is handed to a key or a signer ends in one of three ways: with a value, with an error that
it reports, or with a crash that it does not.
-/

namespace Signet

/-- What is left of work that broke off: its last words, if they are a text. -/
structure Crash where
  lastWords : Option String
  deriving DecidableEq, Repr

def Crash.message (crash : Crash) : String :=
  crash.lastWords.getD "panic with non-string payload"

/-- How work ends: with a value, with an error of a kind, or in a crash. -/
inductive Ending (ε α : Type)
  | value (result : α)
  | failed (error : ε)
  | crashed (crash : Crash)
  deriving DecidableEq, Repr

namespace Ending

variable {ε φ α β : Type}

def map (convert : α → β) : Ending ε α → Ending ε β
  | value result => value (convert result)
  | failed error => failed error
  | crashed crash => crashed crash

def mapError (convert : ε → φ) : Ending ε α → Ending φ α
  | value result => value result
  | failed error => failed (convert error)
  | crashed crash => crashed crash

/-- The ending of work that does not crash. -/
def ofExcept : Except ε α → Ending ε α
  | .ok result => value result
  | .error error => failed error

/-- The ending when a value is looked at once more. -/
def bind (ending : Ending ε α) (next : α → Except ε β) : Ending ε β :=
  match ending with
  | value result => ofExcept (next result)
  | failed error => failed error
  | crashed crash => crashed crash

end Ending

end Signet
