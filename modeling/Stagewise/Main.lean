import Stagewise.Cli.Run
import Stagewise.Http.Frame
import Std.Async.DNS
import Std.Async.TCP
import Std.Async.Timer
/-!
# The program

The command line in the real world: one connection for each request, the terminal, and the files of
the machine. Everything that is decided is decided elsewhere.
-/

namespace Stagewise.Terminal

open Std.Async Std.Net

/-- The socket addresses of a host, the numbers of which may have to be looked up. -/
def socketAddresses (host : Http.Host) (port : UInt16) : Async (Array SocketAddress) := do
  let text := host.text
  let bare := match host with
    | .ipv6 _ => String.ofList ((text.toList.drop 1).dropLast)
    | _ => text
  let found ← DNS.getAddrInfo bare (toString port.toNat)
  return found.map fun
    | .v4 addr => .v4 ⟨addr, port⟩
    | .v6 addr => .v6 ⟨addr, port⟩

/-- All bytes that come until the other side has no more. -/
partial def receiveAll (socket : TCP.Socket.Client) (received : ByteArray) : Async ByteArray := do
  match ← socket.recv? 65536 with
  | some bytes => receiveAll socket (received ++ bytes)
  | none => return received

/-- Sends a text to an address and waits for what comes back. -/
def converse (address : SocketAddress) (text : String) : Async ByteArray := do
  let socket ← TCP.Socket.Client.mk
  socket.connect address
  socket.send text.toUTF8
  receiveAll socket .empty

/-- The reply to a request. -/
def reply (u : Http.Url) (r : Http.Request) : Async Reply := do
  match u.scheme, u.host with
  | "http", some host =>
    let addresses ← socketAddresses host (UInt16.ofNat (u.port.getD 80))
    match addresses[0]? with
    | none => return .unreachable
    | some address =>
      let bytes ← converse address (r.frame u.authority)
      return ((Http.Response.ofBytes? bytes.toList).map Reply.arrived).getD .unreachable
  | _, _ => return .unreachable

def pass (ms : Nat) : Async Unit := sleep (.ofNat ms)

/-- Carries a request and waits for the reply, but not for too long. -/
def exchange (u : Http.Url) (r : Http.Request) (timeoutMs : Nat) : IO Reply := do
  let late : Async Reply := do
    pass timeoutMs
    return .late
  try (Async.race (reply u r) late).block
  catch _ => return .unreachable

/-- The content of a file, or why it cannot be had. -/
def contentOf (path : String) : IO (Except String String) := do
  try
    return .ok (← IO.FS.readFile path)
  catch
    | .noFileOrDirectory .. => return .error "No such file or directory (os error 2)"
    | .permissionDenied .. => return .error "Permission denied (os error 13)"
    | .inappropriateType .. => return .error "Is a directory (os error 21)"
    | _ => return .error "stream did not contain valid UTF-8"

def world : Cli.World IO where
  exchange := exchange
  pause ms := (pass ms).block
  say := IO.println
  contentOf := contentOf

def environment : IO (Named String) := do
  let server ← IO.getEnv "SHOAL_SERVER"
  let token ← IO.getEnv "SHOAL_TOKEN"
  return .ofList <| (server.map fun s => ("SHOAL_SERVER", s)).toList
    ++ (token.map fun s => ("SHOAL_TOKEN", s)).toList

end Stagewise.Terminal

def main (arguments : List String) : IO UInt32 := do
  let exit ← Stagewise.Cli.program Stagewise.Terminal.world
    (← Stagewise.Terminal.environment) arguments
  match exit.last with
  | some line => IO.eprintln line
  | none =>
    if exit.code = 2 then
      IO.eprintln "error: the arguments are not understood; for more, try --help"
  return UInt32.ofNat exit.code
