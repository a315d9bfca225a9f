import Signet.Http.Body

/-!
# Requests and responses on a connection

A request starts with a line that has its method and its target, then come headers, each on a line
of its own, an empty line, and as many octets of body as a header says. A response is written in the
same way, and the connection ends behind it.
-/

namespace Signet.Http.Wire

/-! ## Requests -/

/-- What has come in on a connection so far. -/
inductive Incoming
  | incomplete
  | malformed
  | complete (request : Request)

/-- Splits octets at the first empty line, which belongs to neither part. -/
def splitHead? (octets : Octets) : Option (Octets × Octets) :=
  go [] octets
where
  /-- Goes on behind a part of the head, which is kept in reverse. -/
  go (head : Octets) : Octets → Option (Octets × Octets)
    | [] => none
    | 13 :: 10 :: 13 :: 10 :: body => some (head.reverse, body)
    | octet :: rest => go (octet :: head) rest

def readHeader? (line : String) : Option (String × String) :=
  match line.splitOn ":" with
  | name :: value :: rest => some (name, (":".intercalate (value :: rest)).trimAscii.toString)
  | _ => none

def readHead? (head : Octets) : Option Request := do
  let text ← head.toText?
  match text.splitOn "\r\n" with
  | [] => none
  | line :: lines =>
    match line.splitOn " " with
    | [method, target, _] => do
      let headers ← lines.mapM readHeader?
      some { method, target, headers }
    | _ => none

def bodyLength? (request : Request) : Option Nat :=
  match request.header? "content-length" with
  | none => some 0
  | some text => text.toNat?

/-- Reads a request. Of a body that is too long only so much is kept that it still is. -/
def read (octets : Octets) : Incoming :=
  match splitHead? octets with
  | none => .incomplete
  | some (head, behind) =>
    match readHead? head with
    | none => .malformed
    | some request =>
      match bodyLength? request with
      | none => .malformed
      | some length =>
        let length := min length (Body.limit + 1)
        let body := behind.take length
        if body.length < length then .incomplete else .complete { request with body }

/-! ## Responses -/

def reason (status : Nat) : String :=
  match status with
  | 200 => "OK"
  | 201 => "Created"
  | 400 => "Bad Request"
  | 404 => "Not Found"
  | 405 => "Method Not Allowed"
  | _ => "Internal Server Error"

def write (response : Response) : Octets :=
  let line := s!"HTTP/1.1 {response.status} {reason response.status}\r\n"
  let headers := (response.headers ++ [("connection", "close")]).map fun (name, value) =>
    s!"{name}: {value}\r\n"
  Octets.ofText (line ++ String.join headers ++ "\r\n") ++ response.body

end Signet.Http.Wire
