import Stagewise.Api.Message
import Stagewise.Spec
/-!
# Calls to an agent

What a client can ask an agent for: where it asks, what it sends along, and how it reads the answer.
Reads may be repeated; everything else goes out once, because an agent must never see the same
command twice.
-/

namespace Stagewise

/-- A call to an agent that is answered with an `α`. A call with a body changes something. -/
structure ApiCall (α : Type) where
  path : String
  query : Option String
  body : Option Json
  decode : Json → Decoded α

namespace ApiCall

def isRead {α : Type} (c : ApiCall α) : Bool := c.body.isNone

def read {α : Type} (path : String) (decode : Json → Decoded α) : ApiCall α :=
  ⟨path, none, none, decode⟩

def write {α : Type} (path : String) (body : Json) (decode : Json → Decoded α) : ApiCall α :=
  ⟨path, none, some body, decode⟩

def dagPath (dag : DagId) : String := s!"/api/v1/dags/{dag}"

def health : ApiCall Health := read "/api/health" Document.ofJson

def operations : ApiCall (List OperationInfo) :=
  read "/api/v1/operations" (Listing.ofJson "operations")

def list : ApiCall (List Dag) := read "/api/v1/dags" (Listing.ofJson "dags")

def submit (spec : DagSpec) : ApiCall Dag := write "/api/v1/dags" (toJson spec) Document.ofJson

def dag (dag : DagId) : ApiCall Dag := read (dagPath dag) Document.ofJson

/-- The record of a dag on the path that knows upgrades only. -/
def upgradeDag (dag : DagId) : ApiCall Dag := read s!"/api/v1/upgrade/dags/{dag}" Document.ofJson

def operate (dag : DagId) (operator : Operator) : ApiCall Dag :=
  write (dagPath dag ++ "/operator") (toJson (OperatorRequest.mk operator)) Document.ofJson

/-- The log of a task, or only its last lines. -/
def taskLogs (dag : DagId) (task : TaskId) (tail : Option Nat) : ApiCall (List LogEntry) :=
  { path := s!"{dagPath dag}/tasks/{task}/logs", query := tail.map fun n => s!"tail={toString n}",
    body := none, decode := Listing.ofJson "logs" }

def events (dag : DagId) : ApiCall (List Event) :=
  read (dagPath dag ++ "/events") (Listing.ofJson "events")

def dispatch (request : DispatchRequest) : ApiCall Outcome :=
  write "/api/v1/agent/dispatch" (toJson request) Document.ofJson

end ApiCall

end Stagewise
