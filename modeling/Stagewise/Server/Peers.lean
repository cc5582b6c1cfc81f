import Stagewise.Client.Basic
import Stagewise.Engine.Basic
/-!
# Other agents

How an agent sends tasks to the agents that take part in a dag. What is addressed to itself runs in
its own process. Everything else is one request to the other agent; the lines that come back with
the outcome are kept with the task.
-/

namespace Stagewise.Server

/-- The web as an agent sees it: a request to an address gets a reply after a time, or never. -/
structure Web (σ : Type) where
  exchange : σ → Clock → Http.Url → Http.Request → (Option Nat × Reply) × σ

/-- A reply that is not waited for longer than a client waits. -/
def withinTimeout (timeoutMs : Nat) : Option Nat × Reply → Nat × Reply
  | (some ms, reply) => if ms < timeoutMs then (ms, reply) else (timeoutMs, .late)
  | (none, _) => (timeoutMs, .late)

/-- The error of a dispatch that a client failed at. -/
def dispatchError (agent : Agent) (e : ClientError) : EngineError := .dispatch agent.text e.message

/-- Sends a task to an agent. -/
def reach {σ : Type} (self : Agent) (peers : Client) (web : Web σ) (outside : σ) (clock : Clock)
    (agent : Agent) (request : DispatchRequest) : Delivery × σ :=
  if agent = self then (.inProcess, outside)
  else
    let call := ApiCall.dispatch request
    match (peers.forAgent agent).bind fun c => c.requestFor call with
    | .error e => (.settles (some 0) (.error (dispatchError agent e)) false, outside)
    | .ok (url, r) =>
      let (reply, outside) := web.exchange outside clock url r
      let (ms, reply) := withinTimeout peers.timeoutMs reply
      let result :=
        ((Client.received url reply).bind (Client.answerIn call)).mapError (dispatchError agent)
      (.settles (some ms) result true, outside)

end Stagewise.Server
