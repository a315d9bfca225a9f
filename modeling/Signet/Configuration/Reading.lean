import Signet.Configuration.Basic
import Signet.Json.Reading

/-!
# Reading configurations

A configuration is written as a record of records, and names that it does not have are refused, so
that a misspelt one is found. Only the usages, and the identifiers of a usage, may be left out.
-/

namespace Signet

def KeyAlgorithm.read : Json.Reader KeyAlgorithm :=
  Json.readChoice
    ([.secp256k1, .rsa].map fun algorithm : KeyAlgorithm => (algorithm.name, algorithm))

/-! ## Keys -/

namespace KeyEntry

structure Draft where
  identifier : Option String := none
  algorithm : Option KeyAlgorithm := none
  seed : Option String := none

def Draft.complete (draft : Draft) : Except String KeyEntry :=
  match draft.identifier, draft.algorithm, draft.seed with
  | none, _, _ => .error "identifier"
  | _, none, _ => .error "algorithm"
  | _, _, none => .error "seed"
  | some identifier, some algorithm, some seed => .ok ⟨identifier, algorithm, seed⟩

def record : Json.Record Draft KeyEntry where
  name := "KeyConfig"
  fields :=
    [.of "identifier" Draft.identifier (fun draft identifier => { draft with identifier })
      Json.readText,
     .of "algorithm" Draft.algorithm (fun draft algorithm => { draft with algorithm })
      KeyAlgorithm.read,
     .of "seed" Draft.seed (fun draft seed => { draft with seed }) Json.readText]
  isClosed := true
  blank := {}
  complete := Draft.complete

def read : Json.Reader KeyEntry :=
  record.read

end KeyEntry

/-! ## Usages -/

namespace UsageEntry

structure Draft where
  endpoint : Option Endpoint := none
  identifiers : Option (List String) := none

def Draft.complete (draft : Draft) : Except String UsageEntry :=
  match draft.endpoint with
  | none => .error "endpoint"
  | some endpoint => .ok ⟨endpoint, draft.identifiers.getD []⟩

def record : Json.Record Draft UsageEntry where
  name := "KeyUsageConfig"
  fields :=
    [.of "endpoint" Draft.endpoint (fun draft endpoint => { draft with endpoint }) Endpoint.read,
     .of "identifiers" Draft.identifiers (fun draft identifiers => { draft with identifiers })
      (Json.readList Json.readText)]
  isClosed := true
  blank := {}
  complete := Draft.complete

def read : Json.Reader UsageEntry :=
  record.read

end UsageEntry

/-! ## Configurations -/

namespace Configuration

structure Draft where
  keys : Option (List KeyEntry) := none
  usages : Option (List UsageEntry) := none

/-- The configuration of a draft, or the field that is missing. -/
def Draft.complete (draft : Draft) : Except String Configuration :=
  match draft.keys with
  | none => .error "keys"
  | some keys => .ok ⟨keys, draft.usages.getD []⟩

def record : Json.Record Draft Configuration where
  name := "Config"
  fields :=
    [.of "keys" Draft.keys (fun draft keys => { draft with keys }) (Json.readList KeyEntry.read),
     .of "keyUsages" Draft.usages (fun draft usages => { draft with usages })
      (Json.readList UsageEntry.read)]
  isClosed := true
  blank := {}
  complete := Draft.complete

/-- Reads a configuration without checking it. -/
def read : Json.Reader Configuration :=
  record.read

def ofText (text : String) : Except ConfigurationError Configuration :=
  match Json.readWhole read (Octets.ofText text) with
  | .error fault => .error (.unparsable fault)
  | .ok configuration => configuration.validate.map fun () => configuration

/-- Reads and checks the configuration in a file, given what reading the file came to. -/
def ofFile (path : String) (file : Except FileFault Octets) :
    Except ConfigurationError Configuration :=
  match file with
  | .error fault => .error (.unreadable path fault)
  | .ok octets =>
    match octets.toText? with
    | none => .error (.unreadable path .notUtf8)
    | some text => ofText text

end Configuration

end Signet
