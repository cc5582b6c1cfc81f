import Stagewise.Dag.Document
/-!
# Events

The entries of a dag's journal. An event is written as an object with its name under `type` and its
fields beside it.
-/

namespace Stagewise

/-- Which direction a dispatched task runs in. -/
inductive Action where
  | execute | rollback
  deriving DecidableEq, Repr, Inhabited

def Action.text : Action → String
  | .execute => "execute"
  | .rollback => "rollback"

def Action.title : Action → String
  | .execute => "Execute"
  | .rollback => "Rollback"

instance : Document Action where
  toJson a := .text a.text
  ofJson := Decode.case ([Action.execute, .rollback].map fun a => (a.text, a)) "DispatchAction"

/-- What happened to a dag. -/
inductive EventType where
  | dagSubmitted (name : String) (maxStage : Nat)
  | dagSucceeded
  | dagFailed (stage : Nat) (error : String)
  | dagCancelled
  | dagRolledBack
  | dagRecovered (stage : Nat)
  | stageStarted (stage : Nat) (node : String)
  | stageAdvanced (source target : Nat)
  | stageRolledBack (stage : Nat) (node : String)
  | taskDispatched (task : TaskId) (agent : Agent) (action : Action)
  | taskSucceeded (task : TaskId)
  | taskFailed (task : TaskId) (error : String)
  | taskRolledBack (task : TaskId)
  | operatorCommand (operator : Operator)
  deriving DecidableEq, Repr, Inhabited

namespace EventType

/-- The name of an event. -/
def name : EventType → String
  | .dagSubmitted .. => "dag_submitted"
  | .dagSucceeded => "dag_succeeded"
  | .dagFailed .. => "dag_failed"
  | .dagCancelled => "dag_cancelled"
  | .dagRolledBack => "dag_rolled_back"
  | .dagRecovered .. => "dag_recovered"
  | .stageStarted .. => "stage_started"
  | .stageAdvanced .. => "stage_advanced"
  | .stageRolledBack .. => "stage_rolled_back"
  | .taskDispatched .. => "task_dispatched"
  | .taskSucceeded .. => "task_succeeded"
  | .taskFailed .. => "task_failed"
  | .taskRolledBack .. => "task_rolled_back"
  | .operatorCommand .. => "operator_command"

/-- The fields of an event. -/
def fields : EventType → List (String × Json)
  | .dagSubmitted name maxStage => [("name", .text name), ("max_stage", .int maxStage)]
  | .dagSucceeded | .dagCancelled | .dagRolledBack => []
  | .dagFailed stage error => [("stage", .int stage), ("error", .text error)]
  | .dagRecovered stage => [("stage", .int stage)]
  | .stageStarted stage node | .stageRolledBack stage node =>
    [("stage", .int stage), ("node", .text node)]
  | .stageAdvanced source target => [("from", .int source), ("to", .int target)]
  | .taskDispatched task agent action =>
    [("task_id", toJson task), ("agent", toJson agent), ("action", toJson action)]
  | .taskSucceeded task | .taskRolledBack task => [("task_id", toJson task)]
  | .taskFailed task error => [("task_id", toJson task), ("error", .text error)]
  | .operatorCommand operator => [("operator", toJson operator)]

/-- A case without fields: any object, or an empty list. -/
def plain (event : EventType) : Json → Decoded EventType
  | .list (_ :: _) => .error (.malformed "expected no fields")
  | _ => .ok event

/-- The event of that name with its fields. -/
def ofNamed (name : String) (body : Json) : Decoded EventType :=
  let record := fun names build => Decode.record "EventType" names build body
  match name with
  | "dag_submitted" => record ["name", "max_stage"] fun g => do
    let name ← g.required "name" Decode.text
    let maxStage ← g.required "max_stage" (Decode.unsigned 64)
    return .dagSubmitted name maxStage
  | "dag_succeeded" => plain .dagSucceeded body
  | "dag_failed" => record ["stage", "error"] fun g => do
    let stage ← g.required "stage" (Decode.unsigned 64)
    let error ← g.required "error" Decode.text
    return .dagFailed stage error
  | "dag_cancelled" => plain .dagCancelled body
  | "dag_rolled_back" => plain .dagRolledBack body
  | "dag_recovered" => record ["stage"] fun g => do
    let stage ← g.required "stage" (Decode.unsigned 64)
    return .dagRecovered stage
  | "stage_started" => record ["stage", "node"] fun g => do
    let stage ← g.required "stage" (Decode.unsigned 64)
    let node ← g.required "node" Decode.text
    return .stageStarted stage node
  | "stage_advanced" => record ["from", "to"] fun g => do
    let source ← g.required "from" (Decode.unsigned 64)
    let target ← g.required "to" (Decode.unsigned 64)
    return .stageAdvanced source target
  | "stage_rolled_back" => record ["stage", "node"] fun g => do
    let stage ← g.required "stage" (Decode.unsigned 64)
    let node ← g.required "node" Decode.text
    return .stageRolledBack stage node
  | "task_dispatched" => record ["task_id", "agent", "action"] fun g => do
    let task ← g.required "task_id" Document.ofJson
    let agent ← g.required "agent" Document.ofJson
    let action ← g.required "action" Document.ofJson
    return .taskDispatched task agent action
  | "task_succeeded" => record ["task_id"] fun g => do
    let task ← g.required "task_id" Document.ofJson
    return .taskSucceeded task
  | "task_failed" => record ["task_id", "error"] fun g => do
    let task ← g.required "task_id" Document.ofJson
    let error ← g.required "error" Decode.text
    return .taskFailed task error
  | "task_rolled_back" => record ["task_id"] fun g => do
    let task ← g.required "task_id" Document.ofJson
    return .taskRolledBack task
  | "operator_command" => record ["operator"] fun g => do
    let operator ← g.required "operator" Document.ofJson
    return .operatorCommand operator
  | _ => .error (.unknownVariant name)

/-- The name under `type` and the other members, or the first item of a list and the others. -/
def ofJson (j : Json) : Decoded EventType :=
  if j.isReadable then
    match j with
    | .object members => do
      match members.filter (·.1 == "type") with
      | [(_, .text name)] => ofNamed name (.object (members.filter (·.1 != "type")))
      | [] => throw (.missingField "type")
      | [(_, v)] => throw (.invalidType v "variant identifier")
      | _ => throw (.duplicateField "type")
    | .list (.text name :: rest) => ofNamed name (.list rest)
    | .list _ => .error (.missingField "type")
    | j => .error (.invalidType j "internally tagged enum EventType")
  else .error .unreadable

instance : Document EventType where
  toJson e := .object (("type", .text e.name) :: e.fields)
  ofJson := ofJson

end EventType

/-- An entry of a dag's journal. -/
structure Event where
  id : String
  dagId : DagId
  timestamp : Timestamp
  type : EventType
  deriving DecidableEq, Repr, Inhabited

instance : Document Event where
  toJson e :=
    .object [("id", .text e.id), ("dag_id", toJson e.dagId), ("timestamp", toJson e.timestamp),
      ("event_type", toJson e.type)]
  ofJson := Decode.record "Event" ["id", "dag_id", "timestamp", "event_type"] fun g => do
    let id ← g.required "id" Decode.text
    let dagId ← g.required "dag_id" Document.ofJson
    let timestamp ← g.required "timestamp" Document.ofJson
    let type ← g.required "event_type" Document.ofJson
    return { id, dagId, timestamp, type }

end Stagewise
