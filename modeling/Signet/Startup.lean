import Signet.CommandLine
import Signet.Configuration.Loading
import Signet.Configuration.Reading
import Signet.Service

/-!
# Startup

The program reads its command line, then its configuration, loads the keys, and serves. Whatever
goes wrong before ends it without serving.
-/

namespace Signet

/-- The service of a configuration whose keys have been loaded into a store. -/
def Configuration.service (configuration : Configuration) (store : KeyStore) : Service :=
  ⟨configuration.policy, store.signer⟩

/-- What the program has come to when it would begin to serve. -/
inductive Startup
  | help (lines : List String)
  | misuse (fault : CommandLine.UsageFault)
  | failed (settings : CommandLine.Settings) (log : List Event) (error : ConfigurationError)
  | ready (settings : CommandLine.Settings) (log : List Event) (service : Service)

namespace Startup

def start (arguments : List String) (environment : String → Option String)
    (readFile : String → Except FileFault Octets) : Startup :=
  match CommandLine.read arguments environment with
  | .error .help => help (CommandLine.help environment)
  | .error (.misuse fault) => misuse fault
  | .ok settings =>
    match Configuration.ofFile settings.config (readFile settings.config) with
    | .error error => failed settings [] error
    | .ok configuration =>
      let loading := configuration.load
      match loading.store with
      | .error error => failed settings loading.log error
      | .ok store =>
        ready settings (loading.log ++ [.keyStoreReady store.size])
          (configuration.service store)

/-! ## What is printed -/

def address (settings : CommandLine.Settings) : String :=
  s!"{settings.host}:{settings.port}"

/-- The lines of the log that matter enough. -/
def shown (settings : CommandLine.Settings) (log : List Event) : List String :=
  (log.filter fun event => event.level.verbosity ≤ settings.logLevel.verbosity).map Event.line

/-- What is printed about an error that ends the program. A cause is indented. -/
def report (error : ConfigurationError) : List String :=
  [s!"Error: {error.message}"] ++
    match error.cause? with
    | some cause => ["", "Caused by:", "    " ++ cause.replace "\n" "\n    "]
    | none => []

def advise (fault : CommandLine.UsageFault) : List String :=
  [fault.message, "", CommandLine.usage, "", "For more information, try '--help'."]

/-- What is logged when an interrupt ends the service while nothing is under way. -/
def farewell : List Event :=
  [.interrupted, .closing, .draining 0, .stopped]

/-- A run in which nobody calls: the exit code, which is missing while the service runs, and the
lines on the standard output and on the standard error. -/
def transcript (isInterrupted : Bool) : Startup → Option Nat × List String × List String
  | help lines => (some 0, lines, [])
  | misuse fault => (some 2, [], advise fault)
  | failed settings log error => (some 1, shown settings log, report error)
  | ready settings log _ =>
    let log := log ++ [.listening (address settings)]
    if isInterrupted then (some 0, shown settings (log ++ farewell), [])
    else (none, shown settings log, [])

end Startup

end Signet
