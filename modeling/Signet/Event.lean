import Signet.HashAlgorithm
import Signet.Text.Quoted

/-!
# The log

The log is a list of events. An event has a level, a target, perhaps a message, and fields. What
callers sent and the texts of errors are quoted in access records, so that no caller can make a
record look like another.
-/

namespace Signet

inductive Level
  | error
  | warn
  | info
  | debug
  | trace
  deriving DecidableEq, Repr

namespace Level

def name : Level → String
  | error => "ERROR"
  | warn => "WARN"
  | info => "INFO"
  | debug => "DEBUG"
  | trace => "TRACE"

/-- How many levels are at least as important. -/
def verbosity : Level → Nat
  | error => 1
  | warn => 2
  | info => 3
  | debug => 4
  | trace => 5

end Level

/-- What a field holds: a number, a text that is shown as it is, or a text that is quoted in a line
of the log. -/
inductive FieldValue
  | number (value : Nat)
  | verbatim (text : String)
  | quoted (text : String)
  deriving DecidableEq, Repr

def FieldValue.show : FieldValue → String
  | number value => toString value
  | verbatim text => text
  | quoted text => Text.quote text

/-- What a signing request brought along, as it was sent. -/
structure RequestFields where
  digest : String
  hash : String
  deriving DecidableEq, Repr

/-- What is noted about a call when it is over. -/
structure AccessRecord where
  method : String
  request? : Option RequestFields
  status : Nat
  error : String
  deriving DecidableEq, Repr

namespace AccessRecord

/-- Whether the service is to blame for how a call ended. -/
def isServerError (record : AccessRecord) : Bool :=
  500 ≤ record.status && record.status < 600

def fields (record : AccessRecord) : List (String × FieldValue) :=
  let request := match record.request? with
    | some request =>
      [("digest", .verbatim (Text.quote request.digest)),
       ("hash", .verbatim (Text.quote request.hash))]
    | none => []
  [("m", .quoted record.method)] ++ request ++
    [("st", .number record.status), ("err", .verbatim (Text.quote record.error))]

end AccessRecord

inductive Event
  | keyLoaded (identifier algorithm : String)
  | keyStoreReady (count : Nat)
  | listening (address : String)
  | interrupted
  | closing
  | draining (count : Nat)
  | stopped
  | signingDigest (identifier algorithm : String) (hash : HashAlgorithm)
  | access (record : AccessRecord)
  deriving DecidableEq, Repr

namespace Event

def level : Event → Level
  | keyLoaded .. | keyStoreReady _ | listening _ | stopped => .info
  | signingDigest .. => .debug
  | interrupted | closing | draining _ => .trace
  | access record => if record.isServerError then .error else .info

def target : Event → String
  | keyLoaded .. => "signing_service::config"
  | keyStoreReady _ => "signer"
  | listening _ | stopped => "signing_service::server"
  | interrupted | closing | draining _ => "axum::serve"
  | signingDigest .. => "signing_service::signing::keystore"
  | access _ => "signing_service::access"

/-- The message of an event. Access records have none. -/
def message? : Event → Option String
  | keyLoaded .. => "loaded signing key"
  | keyStoreReady _ => "key store ready"
  | listening _ => "signing service listening"
  | interrupted => "received graceful shutdown signal. Telling tasks to shutdown"
  | closing => "signal received, not accepting new connections"
  | draining count => s!"waiting for {count} task(s) to finish"
  | stopped => "signing service stopped"
  | signingDigest .. => "signing digest"
  | access _ => none

def fields : Event → List (String × FieldValue)
  | keyLoaded identifier algorithm =>
    [("identifier", .verbatim identifier), ("algorithm", .quoted algorithm)]
  | keyStoreReady count => [("keys", .number count)]
  | listening address => [("addr", .verbatim address)]
  | interrupted | closing | draining _ | stopped => []
  | signingDigest identifier algorithm hash =>
    [("identifier", .quoted identifier), ("algorithm", .quoted algorithm),
     ("hash", .verbatim hash.name)]
  | access record => record.fields

/-- An event as a line of the log, without its time. -/
def line (event : Event) : String :=
  s!"{event.level.name} {event.target}:" ++
    (event.message?.map (" " ++ ·)).getD "" ++
    String.join (event.fields.map fun (name, value) => s!" {name}={value.show}")

end Event

end Signet
