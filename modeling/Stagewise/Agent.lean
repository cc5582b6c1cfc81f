import Stagewise.Json.Decode
/-!
# Agents

The address of an agent, as a record and as the text `ip:port`. Reading drops the brackets around an
address with colons; writing puts none.
-/

namespace Stagewise

/-- The address of an agent. -/
structure Agent where
  ip : String
  port : UInt16
  deriving DecidableEq, Repr, Inhabited, Hashable

namespace Agent

/-- The address as `ip:port`. -/
def text (a : Agent) : String := a.ip ++ ":" ++ toString a.port.toNat

instance : ToString Agent := ⟨text⟩

/-- The base of the agent's addresses on the web; an ip that holds a colon stands in brackets. -/
def baseUrl (a : Agent) : String :=
  if a.ip.toList.contains ':' then s!"http://[{a.ip}]:{a.port.toNat}"
  else s!"http://{a.ip}:{a.port.toNat}"

/-- The characters before the last colon and those behind it. -/
def splitLastColon? (cs : List Char) : Option (List Char × List Char) :=
  let port := (cs.reverse.takeWhile (· != ':')).reverse
  match cs.reverse.dropWhile (· != ':') with
  | _ :: ip => some (ip.reverse, port)
  | [] => none

/-- Takes every bracket off the two ends of an ip. -/
def withoutBrackets (cs : List Char) : List Char :=
  ((cs.dropWhile (· == '[')).reverse.dropWhile (· == ']')).reverse

/-- Reads `ip:port`. -/
def parse? (s : String) : Option Agent := do
  let (ip, port) ← splitLastColon? s.toList
  let ip := withoutBrackets ip
  guard (!ip.isEmpty)
  let port ← Text.boundedNat? 65535 (String.ofList port)
  return ⟨String.ofList ip, UInt16.ofNat port⟩

instance : Document Agent where
  toJson a := .object [("ip", .text a.ip), ("port", .int a.port.toNat)]
  ofJson := Decode.record "AgentInfo" ["ip", "port"] fun g => do
    let _ ← g.peek "ip" Decode.text
    let _ ← g.peek "port" (Decode.unsigned 16)
    let ip ← g.required "ip" Decode.text
    let port ← g.required "port" (Decode.unsigned 16)
    return ⟨ip, UInt16.ofNat port⟩

end Agent

end Stagewise
