/-!
# Failures

What goes wrong behind the service is described by a chain of texts: the outermost says what was
attempted, each further one what lay beneath it, down to the root. Callers see none of it; the log
has all of it.
-/

namespace Signet

/-- A failure and what caused it, outermost text first. -/
structure Failure where
  outermost : String
  causes : List String := []
  deriving DecidableEq, Repr

namespace Failure

def chain (failure : Failure) : List String :=
  failure.outermost :: failure.causes

/-- The failure of an attempt that failed because of another failure. -/
def within (context : String) (failure : Failure) : Failure :=
  ⟨context, failure.chain⟩

def text (failure : Failure) : String :=
  ": ".intercalate failure.chain

end Failure

end Signet
