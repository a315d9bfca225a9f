import Signet.Json.Reading
import Signet.Json.Writing

/-!
# Messages

What callers send and what they are answered. Every message is a record that is written with its
fields in their order. Texts that a caller leaves out are empty, and a signing request may be
without a key reference; the answers have no field that may be left out.
-/

namespace Signet

structure KeyReference where
  identifier : String
  deriving DecidableEq, Repr

structure SigningRequest where
  key? : Option KeyReference
  /-- The digest as base64 text. -/
  digest : String
  /-- The name of the hash that made the digest. -/
  hash : String
  deriving DecidableEq, Repr

structure KeyListing where
  keys : List KeyReference
  deriving DecidableEq, Repr

structure PublicKey where
  key : String
  deriving DecidableEq, Repr

/-- A signature as base64 text. -/
structure Signature where
  signature : String
  deriving DecidableEq, Repr

/-! ## Key references -/

namespace KeyReference

def record : Json.Record (Option String) KeyReference where
  name := "KeyMeta"
  fields := [.of "identifier" id (fun _ identifier => some identifier) Json.readText]
  isClosed := false
  blank := none
  complete draft := .ok ⟨draft.getD ""⟩

def read : Json.Reader KeyReference :=
  record.read

/-- Reads a key reference or the word for nothing. -/
def readOption : Json.Reader (Option KeyReference) :=
  Json.readOption read

def write (key : KeyReference) : String :=
  Json.writeObject [("identifier", Json.writeText key.identifier)]

def writeOption (key? : Option KeyReference) : String :=
  (key?.map write).getD "null"

end KeyReference

/-! ## Signing requests -/

namespace SigningRequest

structure Draft where
  key? : Option (Option KeyReference) := none
  digest : Option String := none
  hash : Option String := none

def record : Json.Record Draft SigningRequest where
  name := "SigningRequest"
  fields :=
    [.of "keyMeta" Draft.key? (fun draft key? => { draft with key? := some key? })
      KeyReference.readOption,
     .of "digest" Draft.digest (fun draft digest => { draft with digest }) Json.readText,
     .of "hashAlgorithm" Draft.hash (fun draft hash => { draft with hash }) Json.readText]
  isClosed := false
  blank := {}
  complete draft := .ok ⟨draft.key?.getD none, draft.digest.getD "", draft.hash.getD ""⟩

def read : Json.Reader SigningRequest :=
  record.read

def write (request : SigningRequest) : String :=
  Json.writeObject
    [("keyMeta", KeyReference.writeOption request.key?),
     ("digest", Json.writeText request.digest),
     ("hashAlgorithm", Json.writeText request.hash)]

end SigningRequest

/-! ## Answers -/

namespace KeyListing

def record : Json.Record (Option (List KeyReference)) KeyListing where
  name := "KeyMetas"
  fields := [.of "keys" id (fun _ keys => some keys) (Json.readList KeyReference.read)]
  isClosed := false
  blank := none
  complete
    | some keys => .ok ⟨keys⟩
    | none => .error "keys"

def read : Json.Reader KeyListing :=
  record.read

def write (listing : KeyListing) : String :=
  Json.writeObject [("keys", Json.writeList (listing.keys.map KeyReference.write))]

end KeyListing

namespace PublicKey

def record : Json.Record (Option String) PublicKey where
  name := "PublicKey"
  fields := [.of "key" id (fun _ key => some key) Json.readText]
  isClosed := false
  blank := none
  complete
    | some key => .ok ⟨key⟩
    | none => .error "key"

def read : Json.Reader PublicKey :=
  record.read

def write (key : PublicKey) : String :=
  Json.writeObject [("key", Json.writeText key.key)]

end PublicKey

namespace Signature

def record : Json.Record (Option String) Signature where
  name := "Signature"
  fields := [.of "signature" id (fun _ signature => some signature) Json.readText]
  isClosed := false
  blank := none
  complete
    | some signature => .ok ⟨signature⟩
    | none => .error "signature"

def read : Json.Reader Signature :=
  record.read

def write (signature : Signature) : String :=
  Json.writeObject [("signature", Json.writeText signature.signature)]

end Signature

end Signet
