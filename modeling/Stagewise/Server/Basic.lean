import Stagewise.Api.Message
import Stagewise.Engine.Schedule
import Stagewise.Operation.Builtin
import Stagewise.Server.Answer
import Stagewise.Server.Authorization
import Stagewise.Server.Peers
import Stagewise.Server.Route
import Stagewise.Server.Settings
/-!
# The agent on the web

How an agent answers requests. A request that does not show the token is refused before anything of
the agent's state is looked at; only the agent's health is told to everyone.
-/

namespace Stagewise

/-- An agent on the web: its engine, and whether it has been told to stop. -/
structure Server (σ : Type) where
  engine : Engine σ
  isStopping : Bool

/-- What does not change while an agent is up. -/
structure Seat (σ : Type) where
  self : Agent
  token : Option String
  surroundings : Surroundings σ

namespace Server

variable {σ : Type}

def version : String := "0.1.0"

/-- The longest body of a request, in bytes. -/
def bodyLimit : Nat := 2097152

/-- An agent with the given settings. Its own address has to be one that a client can use. -/
def start (settings : Settings) (machine : Machine) (web : Web σ) (freshIds : Nat → FreshIds)
    (epoch : Timestamp) (outside : σ) : Except Failure (Seat σ × Server σ) :=
  let self := settings.identity
  match Client.build (some self.baseUrl) settings.auth.token
    (1000 * settings.dispatch.timeoutSecs) .never with
  | .ok peers =>
    .ok (⟨self, settings.auth.token, ⟨reach self peers web, freshIds⟩⟩,
      ⟨Engine.new (Builtin.registry machine) epoch outside, false⟩)
  | .error e => .error (e.failure.within "Failed to build agent client")

abbrev ServerM (σ : Type) := ReaderT (Seat σ) (StateM (Server σ))

def perform {α : Type} (act : EngineM σ α) : ServerM σ (Except Fault α) := fun seat s =>
  let (r, engine) := (act.run seat.surroundings).run.run s.engine
  (r, { s with engine })

def answered {α : Type} [Document α] (act : EngineM σ α) : ServerM σ Answer := do
  match ← perform act with
  | .ok a => return .ok a
  | .error (.error e) => return .ofError e
  | .error .stageOutOfRange => return .bare 500

/-- The text of a varying part of the path; one that is no text is a bad request. -/
def withPart (part : String) (next : String → ServerM σ Answer) : ServerM σ Answer :=
  match partText? part with
  | some s => next s
  | none => return .bare 400

def withDag (name : String) (next : DagId → ServerM σ Answer) : ServerM σ Answer :=
  match DagId.parse? name with
  | some dag => next dag
  | none => return .badRequest s!"Invalid dag ID: {name}"

def withTask (name : String) (next : TaskId → ServerM σ Answer) : ServerM σ Answer :=
  match TaskId.parse? name with
  | some task => next task
  | none => return .badRequest s!"Invalid task ID: {name}"

/-- Whether a kind of content is a document: `application/json`, or anything of `application` that
ends in `+json`. -/
def isDocumentType (value : String) : Bool :=
  let essence := (value.toList.takeWhile (· != ';')).map Char.toLower
  let essence := (essence.reverse.dropWhile (· == ' ')).reverse
  match (String.ofList essence).splitOn "/" with
  | ["application", kind] =>
    let parts := kind.splitOn "+"
    Http.isHeaderName kind &&
      (parts.getLast? == some "json" || "+".intercalate parts.dropLast == "json")
  | _ => false

/-- The document in the body of a request: it has to be said to be one, well formed, and of the
right shape. -/
def bodyOf (α : Type) [Document α] (r : Http.Request) : Except Answer α :=
  let isDocument := match r.headers.first? "content-type" with
    | some value => Http.isPlainValue value && isDocumentType value
    | none => false
  if !isDocument then .error (.bare 415)
  else if bodyLimit < r.body.utf8ByteSize then .error (.bare 413)
  else
    match Json.read? r.body with
    | none => .error (.bare 400)
    | some j =>
      match Document.ofJson j with
      | .ok a => .ok a
      | .error .unreadable => .error (.bare 400)
      | .error _ => .error (.bare 422)

/-- Goes on with the document in the body of a request. -/
def withBody {α : Type} [Document α] (r : Http.Request) (next : α → ServerM σ Answer) :
    ServerM σ Answer :=
  match bodyOf α r with
  | .ok a => next a
  | .error answer => return answer

/-- How many of the last lines are asked for, if the query can be read. -/
def tailOf? (query : Option String) : Option (Option Nat) :=
  match (Http.queryPairs (query.getD "")).filter (·.1 == "tail") with
  | [] => some none
  | [(_, value)] => (Text.boundedNat? (Nat.pow 2 64 - 1) value).map some
  | _ => none

def tellHealth : ServerM σ Answer := do
  let seat ← read
  return ⟨200,
    some (.object [("status", .text "ok"), ("agent", .text seat.self.text),
      ("version", .text version)])⟩

def listOperations : ServerM σ Answer := do
  let registry := (← get).engine.registry
  let infos : List OperationInfo :=
    registry.operations.rows.map fun (name, o) => ⟨name, o.capabilities⟩
  return ⟨200, some (Listing.toJson "operations" ⟨infos⟩)⟩

def tellUpgrade (dag : DagId) : ServerM σ Answer := do
  match ← perform (Engine.load dag) with
  | .ok d =>
    return if d.kind = .upgrade then .ok d else .notFound s!"dag {dag} is not an upgrade dag"
  | .error (.error e) => return .ofError e
  | .error .stageOutOfRange => return .bare 500

/-- Takes part in a task that another agent sends. The agent's own dags go on meanwhile. -/
def takePart (request : DispatchRequest) : ServerM σ Answer := do
  let seat ← read
  let s ← get
  let registry := s.engine.registry
  let nth ← if Runner.calls registry seat.self request then
      perform (Engine.countCall request.task.typeName request.action)
    else pure (.ok 0)
  let stop : Stop := if s.isStopping then .beforehand else .never
  match Runner.run registry seat.self request (nth.toOption.getD 0) stop s.engine.clock.after with
  | some (outcome, took) =>
    let _ ← perform (Engine.advance took)
    return .ok outcome
  | none => return .bare 504

/-- The answer to a request on a route by one of its methods. -/
def serve (route : Route) (r : Http.Request) : ServerM σ Answer :=
  match route with
  | .health => tellHealth
  | .operations => listOperations
  | .dags =>
    if r.method = "POST" then withBody r fun (spec : DagSpec) => answered (Engine.submit spec)
    else answered do return Listing.toJson "dags" ⟨← Engine.list⟩
  | .dag id => withPart id fun id => withDag id fun dag => answered (Engine.load dag)
  | .upgradeDag id => withPart id fun id => withDag id tellUpgrade
  | .operator id => withPart id fun id => withBody r fun (request : OperatorRequest) =>
    withDag id fun dag => answered (Engine.command dag request.operator)
  | .events id => withPart id fun id => withDag id fun dag => answered do
      return Listing.toJson "events" ⟨← Engine.events dag⟩
  | .taskLogs id task => withPart id fun id => withPart task fun task =>
    match tailOf? r.query with
    | none => return .bare 400
    | some tail => withDag id fun dag => withTask task fun task => answered do
        return Listing.toJson "logs" ⟨← Engine.taskLogs dag task tail⟩
  | .dispatch => withBody r takePart

/-- The answer to a request. Questions of a browser what it may ask are answered before all else. -/
def respond (r : Http.Request) : ServerM σ Answer := do
  if r.method = "OPTIONS" then return .bare 200
  match Route.ofPath? r.path with
  | none => return .bare 404
  | some route =>
    if !route.isOpen && !isAuthorized (← read).token r.headers then return .bare 401
    else if !route.methods.contains r.method then return .bare 405
    else
      let answer ← serve route r
      return if r.method = "HEAD" then .bare answer.status else answer

/-- Tells the agent to stop: tasks of other agents are refused from now on. -/
def stop : ServerM σ Unit := modify fun s => { s with isStopping := true }

end Server

end Stagewise
