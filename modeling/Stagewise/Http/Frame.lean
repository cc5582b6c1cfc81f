import Stagewise.Http.Message
import Stagewise.Http.Percent
import Stagewise.Http.Url
/-!
# Frames

The bytes of a request as they go out, and the response that the bytes which come back stand for.
One connection carries one request; the body of a response is framed by its length, by chunks, or by
the end of the connection.
-/

namespace Stagewise.Http

def lineEnd : String := "\r\n"

def Request.frame (host : String) (r : Request) : String :=
  let own := [("host", host), ("connection", "close"), ("accept", "*/*")]
  let length := if r.body.isEmpty then [] else [("content-length", toString r.body.utf8ByteSize)]
  let lines :=
    s!"{r.method} {r.target} HTTP/1.1" :: (own ++ r.headers ++ length).map fun (name, value) =>
    name ++ ": " ++ value
  String.join (lines.map (· ++ lineEnd)) ++ lineEnd ++ r.body

/-- Host and port of an address as they stand in a request. -/
def Url.authority (u : Url) : String :=
  (u.host.map Host.text).getD "" ++ (match u.port with
    | some port => ":" ++ toString port
    | none => "")

/-- The bytes before the end of a line, and those behind it. -/
def takeLine : List UInt8 → List UInt8 × List UInt8
  | [] => ([], [])
  | 13 :: 10 :: rest => ([], rest)
  | b :: rest =>
    let (line, rest) := takeLine rest
    (b :: line, rest)

/-- The header lines up to an empty one, and the bytes behind it. -/
def takeHeaders : (fuel : Nat) → List UInt8 → Headers × List UInt8
  | 0, bytes => ([], bytes)
  | fuel + 1, bytes =>
    match takeLine bytes with
    | ([], rest) => ([], rest)
    | (line, rest) =>
      let cs := (lossyText line).toList
      let name := cs.takeWhile (· != ':')
      let value := (cs.drop (name.length + 1)).dropWhile (· == ' ')
      let (headers, rest) := takeHeaders fuel rest
      ((String.ofList name, String.ofList value) :: headers, rest)

/-- The bytes of chunks, each behind a line with its length in hexadecimal digits. -/
def unchunked : (fuel : Nat) → List UInt8 → Option (List UInt8)
  | 0, _ => none
  | fuel + 1, bytes => do
    let (line, rest) := takeLine bytes
    let digits := (lossyText line).toList.takeWhile fun c => (Text.hexDigit? c).isSome
    guard (!digits.isEmpty)
    let length ← Text.natOfHex? digits
    if length = 0 then return []
    guard (length ≤ rest.length)
    let more ← unchunked fuel ((rest.drop length).drop 2)
    return rest.take length ++ more

/-- The body of a response by its headers. -/
def bodyOf? (headers : Headers) (bytes : List UInt8) : Option (List UInt8) :=
  match headers.first? "transfer-encoding", headers.first? "content-length" with
  | some encoding, _ =>
    if lowered encoding == "chunked" then unchunked (bytes.length + 1) bytes else none
  | none, some digits => do
    let length ← Text.natOfDigits? digits.toList
    guard (length ≤ bytes.length)
    return bytes.take length
  | none, none => some bytes

def statusOf? (line : String) : Option Nat :=
  match line.splitOn " " with
  | version :: status :: _ =>
    if version.startsWith "HTTP/" then Text.natOfDigits? status.toList else none
  | _ => none

/-- The response that bytes stand for, if they are the whole of one. -/
def Response.ofBytes? (bytes : List UInt8) : Option Response := do
  let (line, rest) := takeLine bytes
  let status ← statusOf? (lossyText line)
  let (headers, rest) := takeHeaders (rest.length + 1) rest
  let body ← bodyOf? headers rest
  return ⟨status, lossyText body⟩

end Stagewise.Http
