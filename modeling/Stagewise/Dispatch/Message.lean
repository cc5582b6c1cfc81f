import Stagewise.Event
/-!
# Dispatches

What is sent to an agent that takes part in a stage, and what it reports back.
-/

namespace Stagewise

/-- A task sent to one agent. -/
structure DispatchRequest where
  dagId : DagId
  task : Task
  action : Action
  deriving Repr, Inhabited

/-- What one agent reports back about a task. -/
structure Outcome where
  taskId : TaskId
  agent : Agent
  status : TaskStatus
  error : Option String
  context : TaskContext
  logs : List LogEntry
  deriving Repr, Inhabited

instance : Document DispatchRequest where
  toJson r :=
    .object [("dag_id", toJson r.dagId), ("task", toJson r.task), ("action", toJson r.action)]
  ofJson := Decode.record "DispatchRequest" ["dag_id", "task", "action"] fun g => do
    let dagId ← g.required "dag_id" Document.ofJson
    let task ← g.required "task" Document.ofJson
    let action ← g.required "action" Document.ofJson
    return { dagId, task, action }

instance : Document Outcome where
  toJson o :=
    .object [("task_id", toJson o.taskId), ("agent", toJson o.agent), ("status", toJson o.status),
      ("error", Json.ofOption .text o.error), ("context", toJson o.context),
      ("logs", .list (o.logs.map toJson))]
  ofJson := Decode.record "TaskOutcome" ["task_id", "agent", "status", "error", "context",
    "logs"] fun g => do
    let taskId ← g.required "task_id" Document.ofJson
    let agent ← g.required "agent" Document.ofJson
    let status ← g.required "status" Document.ofJson
    let error ← g.optional "error" Decode.text
    let context ← g.required "context" Document.ofJson
    let logs ← g.withDefault "logs" (Decode.list Document.ofJson) []
    return { taskId, agent, status, error, context, logs }

end Stagewise
