import Stagewise.Engine.Basic
import Stagewise.Rehearsal.Operation
import Stagewise.Server.Peers
import Stagewise.Server.Route
/-!
# Rehearsed agents

The other agents of a rehearsal: what each answers is listed, and what it was asked is kept.
Dispatches, the store and the journal can be made to fail in the same way.
-/

namespace Stagewise.Rehearsal

/-- An agent whose answers are listed by route, what it has been asked so far, and how often on each
route. -/
structure ScriptedAgent where
  routes : Json
  counts : Named Nat := .empty
  seen : List Json := []
  deriving Repr, Inhabited

/-- The name of the route of a request. -/
def routeName (r : Http.Request) : String :=
  match Server.Route.ofPath? r.path, r.method with
  | some .health, "GET" => "health"
  | some .operations, "GET" => "operations"
  | some .dags, "GET" => "list"
  | some .dags, "POST" => "submit"
  | some (.dag _), "GET" => "dag"
  | some (.upgradeDag _), "GET" => "upgrade"
  | some (.operator _), "POST" => "operator"
  | some (.events _), "GET" => "events"
  | some (.taskLogs ..), "GET" => "logs"
  | some .dispatch, "POST" => "dispatch"
  | _, _ => "other"

def record (r : Http.Request) : Json :=
  .object [("method", .text r.method), ("target", .text r.target),
    ("auth", Json.ofOption .text (r.headers.first? "authorization")),
    ("body", (Json.read? r.body).getD .null)]

/-- The reply that a listed answer stands for; none if it never comes. -/
def reply? (answer : Json) : Option Reply :=
  if answer.flagAt "drop" then some .unreachable
  else if answer.flagAt "hang" then none
  else
    let body := ((answer.get? "json").map Json.compact).getD (answer.textAt "text")
    some (.arrived ⟨(answer.natAt? "status").getD 200, body⟩)

/-- The reply to a request, none if it never comes. A route without answers is not found. -/
def ScriptedAgent.ask (a : ScriptedAgent) (r : Http.Request) : Option Reply × ScriptedAgent :=
  let name := routeName r
  let n := (a.counts.get? name).getD 0
  let a := { a with counts := a.counts.insert name (n + 1), seen := a.seen ++ [record r] }
  match nth? (a.routes.itemsAt name) n with
  | none => (some (.arrived ⟨404, ""⟩), a)
  | some answer => (reply? answer, a)

/-- The outcome that a listed answer to a dispatch stands for. -/
def outcome (j : Json) (agent : Agent) (request : DispatchRequest) : Outcome :=
  let context := match Decode.fields (j.field "results") with
    | .ok results => { request.task.context with results }
    | .error _ => request.task.context
  { taskId := request.task.id, agent,
    status := (Document.ofJson (j.field "status")).toOption.getD .succeeded,
    error := j.textAt? "error", context, logs := [] }

/-- How the n-th dispatch to an agent goes by the answers listed for it. What is not listed runs in
this process. -/
def reach (answers : Json) (counts : Named Nat) (_ : Clock) (agent : Agent)
    (request : DispatchRequest) :
    Delivery × Named Nat :=
  let n := (counts.get? agent.text).getD 0
  let counts := counts.insert agent.text (n + 1)
  let delivery : Delivery := match nth? (answers.itemsAt agent.text) n with
    | none => .inProcess
    | some a =>
      match a.get? "unreachable", a.get? "status" with
      | some message, _ =>
        .settles (some 0) (.error (.dispatch agent.text (message.asText?.getD ""))) false
      | none, some _ => .settles (some 0) (.ok (outcome a agent request)) false
      | none, none => .inProcess
  (delivery, counts)

/-- Which calls of store and journal fail. -/
def outages (j : Json) : Outages :=
  let listed (key : String) (n : Nat) : Bool := ((j.itemsAt key).filterMap Json.asNat?).contains n
  { swap := fun n =>
      if listed "cas_false" n then .loses
      else if listed "cas_error" n then .fails (.of "cas refused")
      else .works,
    save := if j.flagAt "save" then some (.of "save refused") else none,
    list := if j.flagAt "list" then some (.of "list refused") else none,
    append := if j.flagAt "append" then some (.of "append refused") else none,
    journalFails := j.flagAt "journal" }

end Stagewise.Rehearsal
