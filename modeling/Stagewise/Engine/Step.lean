import Stagewise.Error
import Stagewise.Event
/-!
# Steps of a running dag

What the drive loop does with a running dag before it waits for anyone: leave a stage that is done,
end the dag, or mark the tasks of the stage as running and send them out; and under a rollback, send
out what has to be compensated, or step back over a stage that holds nothing more to compensate.
-/

namespace Stagewise

/-- Why an engine operation gives no answer: an error, or a stage that points at no node. -/
inductive Fault where
  | error (e : EngineError)
  | stageOutOfRange
  deriving DecidableEq, Repr, Inhabited

/-- The answer of an engine operation that may meet a stage out of range. -/
abbrev Checked (α : Type) := Except Fault α

/-- The tasks to send out, each with the agents it goes to. -/
abbrev Batch := List (Task × List Agent)

/-- One step: the record to write, if any, the events to journal after it, and the tasks to send
out, if any. -/
structure Move where
  write : Option Dag
  events : List EventType
  batch : Option Batch
  deriving Repr

namespace Dag

def current (d : Dag) : Checked Node :=
  match d.currentNode? with
  | some n => .ok n
  | none => .error .stageOutOfRange

/-- The tasks of a node for which the test holds, each with its targets. -/
def batchOf (n : Node) (p : Task → Bool) : Batch := (n.tasks.filter p).map fun t => (t, n.targets t)

/-- A task that goes out: running from now on, and with nothing reported. -/
def markRunning (now : Timestamp) (t : Task) : Task :=
  if t.status.isTerminal then t
  else
    { t with status := .running, startedAt := some now, finishedAt := none, agentResults := .empty }

def failureText (n : Node) : String :=
  String.intercalate ", " (n.failedTasks.map fun t => s!"task '{t.name}' failed")

/-- A step forward. -/
def forward (d : Dag) (now : Timestamp) : Checked Move := do
  let node ← d.current
  let stage := d.stage
  if node.status.isDone then
    if stage < d.maxStage then
      return ⟨some { d with stage := stage + 1 }, [.stageAdvanced stage (stage + 1)], none⟩
    else
      return ⟨some { d with status := .succeeded }, [.dagSucceeded], none⟩
  else if node.status == .failed then
    return ⟨some { d with status := .failed }, [.dagFailed stage (failureText node)], none⟩
  else
    let started := { node with tasks := node.tasks.map (markRunning now) }
    let d := d.modifyCurrent fun _ => started
    let batch := batchOf started fun t => t.status == .running
    if batch.isEmpty then
      return ⟨some { d with status := .failed },
        [.dagFailed stage s!"node '{node.name}' has no runnable tasks"], none⟩
    else
      return ⟨some d, [.stageStarted stage node.name], some batch⟩

/-- A step of a rollback. -/
def unwind (d : Dag) : Checked Move := do
  let node ← d.current
  let batch := batchOf node fun t => t.status.isExecuted
  if !batch.isEmpty then
    return ⟨none, [], some batch⟩
  else if 1 < d.stage then
    return ⟨some { d with stage := d.stage - 1 }, [.stageRolledBack d.stage node.name], none⟩
  else
    return ⟨some { d with status := .failed },
      [.stageRolledBack d.stage node.name, .dagRolledBack], none⟩

def direction (d : Dag) : Action := if d.operator == .rollback then .rollback else .execute

def step (d : Dag) (now : Timestamp) : Checked Move :=
  match d.direction with
  | .rollback => d.unwind
  | .execute => d.forward now

/-- The record as it is written: its version raised by one, at the present time. -/
def raised (d : Dag) (now : Timestamp) : Dag :=
  { d with version := d.version + 1, updatedAt := now }

end Dag

end Stagewise
