import Signet.Http.Wire
import Signet.Session
import Signet.Startup
import Std.Async.DNS
import Std.Async.Signal
import Std.Async.TCP

/-!
# The server

Requests are taken from connections one after the other until the program is interrupted. What a
request is answered is decided by the session; here it is only received and sent.
-/

namespace Signet.Server

open Std.Async Std.Net

def print (settings : CommandLine.Settings) (log : List Event) : IO Unit := do
  for line in Startup.shown settings log do
    IO.println line

def chunk : UInt64 :=
  65536

/-- Receives a request, unless the connection ends before. -/
def receive (client : TCP.Socket.Client) : Async (Option Http.Request) := do
  let mut octets : Octets := []
  let mut incoming := Http.Wire.Incoming.incomplete
  repeat
    match incoming with
    | .complete request => return some request
    | .malformed => return none
    | .incomplete =>
      match ← client.recv? chunk with
      | none => return none
      | some bytes =>
        octets := octets ++ bytes.toList
        incoming := Http.Wire.read octets
  return none

def answer (settings : CommandLine.Settings) (service : Service) (session : Session)
    (client : TCP.Socket.Client) : Async Session := do
  match ← receive client with
  | none => return session
  | some request =>
    let (served, after) := session.step service (.request request) .toTheEnd
    print settings served.log
    if let .ended (.response response) := served.progress then
      client.send (ByteArray.mk (Http.Wire.write response).toArray)
      client.shutdown
    return after

/-- Answers requests until an interrupt. -/
def serve (settings : CommandLine.Settings) (service : Service)
    (socket : TCP.Socket.Server) : Async Unit := do
  let interrupt ← Signal.Waiter.mk .sigint false
  let mut session : Session := {}
  repeat
    let next : Option TCP.Socket.Client ← Selectable.one #[
      .case interrupt.selector fun () => return none,
      .case socket.acceptSelector fun client => return some client]
    match next with
    | none => break
    | some client =>
      try session ← answer settings service session client
      catch _ => pure ()
  print settings Startup.farewell

def resolve (host : String) (port : Nat) : Async SocketAddress := do
  let addresses ← DNS.getAddrInfo host (toString port)
  match addresses.toList with
  | .v4 address :: _ => return .v4 ⟨address, port.toUInt16⟩
  | .v6 address :: _ => return .v6 ⟨address, port.toUInt16⟩
  | [] => throw (IO.userError s!"no address for {host}")

def run (settings : CommandLine.Settings) (service : Service) : IO Unit := Async.block do
  let socket ← TCP.Socket.Server.mk
  socket.bind (← resolve settings.host settings.port)
  socket.listen 128
  print settings [.listening (Startup.address settings)]
  serve settings service socket

end Signet.Server
