import Stagewise.Engine.Step
/-!
# Operator commands

When a command is accepted and what it changes. A command is refused as a whole before anything
changes: because of the state the dag is in, or because a task it would touch does not allow it.
-/

namespace Stagewise

abbrev LogLines := List (TaskId × String)

namespace Dag

/-- The refusal of a command because of the state the dag is in. -/
def refuse (d : Dag) (command : Operator) : Fault := .error (.invalidState d.id d.status command)

/-- The first task that does not allow a command is named in the refusal. -/
def demand (command : Operator) (tasks : List Task) : Checked Unit :=
  match tasks.find? fun t => !t.capabilities.permits command with
  | some t => .error (.error (.notPermitted command t.name))
  | none => .ok ()

/-- The failed tasks of the node at work, if a command may be given to all of them. -/
def failedTasksPermitting (d : Dag) (command : Operator) : Checked (List TaskId) := do
  if !d.isFailed || d.operator == .rollback then throw (d.refuse command)
  let node ← d.current
  let failed := node.failedTasks
  if failed.isEmpty then throw (d.refuse command)
  demand command failed
  return failed.map (·.id)

def modifyTasks (d : Dag) (ids : List TaskId) (f : Task → Task) : Dag :=
  ids.foldl (fun d id => d.modifyTask id f) d

def again (t : Task) : Task :=
  { t with status := .pending, startedAt := none, finishedAt := none, agentResults := .empty }

/-- The failed tasks of the node at work run again. -/
def retry (d : Dag) : Checked (Dag × LogLines) := do
  let ids ← d.failedTasksPermitting .retry
  return ({ d.modifyTasks ids again with status := .running },
    ids.map fun id => (id, "retry requested by operator"))

/-- The failed tasks of the node at work count as succeeded. -/
def pass (d : Dag) (now : Timestamp) : Checked (Dag × LogLines) := do
  let ids ← d.failedTasksPermitting .pass
  let d := d.modifyTasks ids fun t => { t with status := .succeeded, finishedAt := some now }
  return ({ d with status := .running },
    ids.map fun id => (id, "marked succeeded by operator override (PASS)"))

/-- Whatever has run in the nodes up to the stage is to be compensated. -/
def rollback (d : Dag) : Checked (Dag × LogLines) := do
  if !d.isFailed then throw (d.refuse .rollback)
  match d.reached? with
  | none => throw .stageOutOfRange
  | some nodes =>
    let executed := (nodes.flatMap (·.tasks)).filter (·.status.isExecuted)
    demand .rollback executed
    return ({ d with status := .running },
      executed.map fun t => (t.id, "rollback requested by operator"))

def stopped (now : Timestamp) (t : Task) : Task :=
  match t.status with
  | .running => { t with status := .failed, finishedAt := some now }
  | .pending => { t with status := .skipped, finishedAt := some now }
  | _ => t

/-- What runs fails, and what has not started is skipped. -/
def cancel (d : Dag) (now : Timestamp) : Checked (Dag × LogLines) := do
  if !(d.isRunning || d.isFailed) then throw (d.refuse .cancel)
  let running := d.tasks.filter (·.status == .running)
  demand .cancel running
  return ({ d.mapTasks (stopped now) with status := .cancelled },
    running.map fun t => (t.id, "cancelled by operator"))

/-- The record that a command makes of a dag, before it is written, and the lines to log. -/
def command (d : Dag) (operator : Operator) (now : Timestamp) : Checked (Dag × LogLines) := do
  let (d, lines) ← match operator with
    | .run => throw (d.refuse .run)
    | .retry => d.retry
    | .pass => d.pass now
    | .rollback => d.rollback
    | .cancel => d.cancel now
  return ({ d with operator }, lines)

end Dag

end Stagewise
