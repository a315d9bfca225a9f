import Signet.DigestSigner
import Signet.Endpoint
import Signet.Json.Fault
import Signet.Policy

/-!
# Configurations

A configuration lists the keys, each with the seed that it is derived from, and says for each
endpoint which of them it may use. It is valid if no identifier and no endpoint occurs twice, no
seed is empty, and only keys that it lists are used. The first violation counts, keys before usages.
-/

namespace Signet

structure KeyEntry where
  identifier : String
  algorithm : KeyAlgorithm
  seed : String
  deriving DecidableEq, Repr

structure UsageEntry where
  endpoint : Endpoint
  identifiers : List String
  deriving DecidableEq, Repr

structure Configuration where
  keys : List KeyEntry
  usages : List UsageEntry
  deriving DecidableEq, Repr

/-! ## What can be wrong -/

inductive FileFault
  | missing
  | nameTooLong
  | directory
  | notDirectory
  | notUtf8
  | other (problem : String)
  deriving DecidableEq, Repr

def FileFault.message : FileFault → String
  | missing => "No such file or directory (os error 2)"
  | nameTooLong => "File name too long (os error 36)"
  | directory => "Is a directory (os error 21)"
  | notDirectory => "Not a directory (os error 20)"
  | notUtf8 => "stream did not contain valid UTF-8"
  | other problem => problem

inductive ConfigurationError
  | unreadable (path : String) (fault : FileFault)
  | unparsable (fault : Json.Fault)
  | duplicateKey (identifier : String)
  | emptySeed (identifier : String)
  | duplicateEndpoint (endpoint : Endpoint)
  | unknownKey (endpoint : Endpoint) (identifier : String)
  | underivableKey (identifier : String) (failure : Failure)

namespace ConfigurationError

def message : ConfigurationError → String
  | unreadable path fault => s!"failed to read config file {path}: {fault.message}"
  | unparsable fault => s!"failed to parse config: {fault.message}"
  | duplicateKey identifier => s!"duplicate key identifier {Text.quote identifier}"
  | emptySeed identifier => s!"key {Text.quote identifier} has an empty seed"
  | duplicateEndpoint endpoint =>
    s!"endpoint {endpoint.name} is listed more than once in keyUsages"
  | unknownKey endpoint identifier =>
    s!"key usage for {endpoint.name} references unknown key {Text.quote identifier}"
  | underivableKey identifier failure =>
    s!"failed to load key {Text.quote identifier}: {failure.text}"

/-- What lies beneath an error, if it is not told by the error alone. -/
def cause? : ConfigurationError → Option String
  | unreadable _ fault => some fault.message
  | unparsable fault => some fault.message
  | _ => none

end ConfigurationError

namespace Configuration

/-! ## Validity -/

/-- Checks keys behind keys with some identifiers. -/
def validateKeys (seen : List String) : List KeyEntry → Except ConfigurationError Unit
  | [] => .ok ()
  | key :: keys =>
    if seen.contains key.identifier then .error (.duplicateKey key.identifier)
    else if key.seed.isEmpty then .error (.emptySeed key.identifier)
    else validateKeys (key.identifier :: seen) keys

/-- Checks usages of keys with some identifiers behind usages of some endpoints. -/
def validateUsages (identifiers : List String) (seen : List Endpoint) :
    List UsageEntry → Except ConfigurationError Unit
  | [] => .ok ()
  | usage :: usages =>
    if seen.contains usage.endpoint then .error (.duplicateEndpoint usage.endpoint)
    else
      match usage.identifiers.find? fun identifier => !identifiers.contains identifier with
      | some unknown => .error (.unknownKey usage.endpoint unknown)
      | none => validateUsages identifiers (usage.endpoint :: seen) usages

def identifiers (configuration : Configuration) : List String :=
  configuration.keys.map KeyEntry.identifier

def validate (configuration : Configuration) : Except ConfigurationError Unit :=
  match validateKeys [] configuration.keys with
  | .error error => .error error
  | .ok () => validateUsages configuration.identifiers [] configuration.usages

def policy (configuration : Configuration) : Policy :=
  .ofEntries (configuration.usages.map fun usage => (usage.endpoint, usage.identifiers))

end Configuration

end Signet
