import Stagewise.Context
import Stagewise.Operator
import Stagewise.Status
import Stagewise.Uuid
/-!
# Dags

A dag is a list of nodes that are worked off one after another; a node is a list of tasks that run
side by side. The stage of a dag counts its nodes from one and says which of them is at work.
-/

namespace Stagewise

/-- A unit of work inside a node. The results by agent are kept under the agent's text, sorted. -/
structure Task where
  id : TaskId
  name : String
  typeName : String
  context : TaskContext
  capabilities : Capabilities
  status : TaskStatus
  agentResults : Named TaskStatus
  startedAt : Option Timestamp
  finishedAt : Option Timestamp
  deriving Repr, Inhabited

/-- A stage of a dag. The participants receive every dispatch of the node besides the agents that do
the work. -/
structure Node where
  name : String
  participants : List Agent
  tasks : List Task
  deriving Repr, Inhabited

/-- Whether a dag is also offered on the upgrade path. -/
inductive DagKind where
  | standard | upgrade
  deriving DecidableEq, Repr, Inhabited

/-- A workflow: its nodes, the stage it has come to, and the version that every write raises by
one. -/
structure Dag where
  id : DagId
  name : String
  kind : DagKind
  nodes : List Node
  stage : Nat
  maxStage : Nat
  status : DagStatus
  operator : Operator
  version : Nat
  createdAt : Timestamp
  updatedAt : Timestamp
  deriving Repr, Inhabited

def Task.agent (t : Task) : Agent := t.context.executeAgent

def DagKind.text : DagKind → String
  | .standard => "standard"
  | .upgrade => "upgrade"

namespace Node

/-- The status that follows from those of the tasks; the first rule that holds decides. -/
def status (n : Node) : NodeStatus :=
  if n.tasks.all (·.status == .skipped) then .skipped
  else if n.tasks.all (·.status.isDone) then .succeeded
  else if n.tasks.any (·.status == .failed) then .failed
  else if n.tasks.all
      (fun t => t.status == .rolledBack || t.status == .pending || t.status == .skipped)
      && n.tasks.any (·.status == .rolledBack) then .rolledBack
  else if n.tasks.all (·.status == .pending) then .pending
  else .running

/-- The agents that a task is sent to: the participants, and the agent that does the work if it is
none of them. -/
def targets (n : Node) (t : Task) : List Agent :=
  if t.agent ∈ n.participants then n.participants else n.participants ++ [t.agent]

def failedTasks (n : Node) : List Task := n.tasks.filter (·.status == .failed)

end Node

namespace Dag

/-- The node at work, if the stage lies within the nodes. -/
def currentNode? (d : Dag) : Option Node := if d.stage = 0 then none else d.nodes[d.stage - 1]?

def tasks (d : Dag) : List Task := d.nodes.flatMap (·.tasks)

/-- The nodes up to the stage, if there are so many. -/
def reached? (d : Dag) : Option (List Node) :=
  if d.stage ≤ d.nodes.length then some (d.nodes.take d.stage) else none

def isFinished (d : Dag) : Bool := d.status.isFinished
def isSucceeded (d : Dag) : Bool := d.status == .succeeded
def isFailed (d : Dag) : Bool := d.status == .failed
def isRunning (d : Dag) : Bool := d.status == .running
def isCancelled (d : Dag) : Bool := d.status == .cancelled

def allTasksDone (d : Dag) : Bool := d.nodes.all fun n => n.tasks.all (·.status.isDone)

/-- The first task with that identifier. -/
def task? (d : Dag) (id : TaskId) : Option Task := d.tasks.find? (·.id == id)

/-- The first failed task of a list of nodes with its node. -/
def firstFailed? (nodes : List Node) : Option (Node × Task) :=
  nodes.findSome? fun n => n.failedTasks.head?.map fun t => (n, t)

/-- The first failed task with its node, the node at work searched first. Undefined when the stage
lies beyond the nodes. -/
def failedTask? (d : Dag) : Option (Option (Node × Task)) :=
  d.reached?.map fun nodes => firstFailed? nodes.reverse

/-- A rollback has undone every stage and no task is left failed. Undefined when it has to look for
a failed task and the stage lies beyond the nodes. -/
def isRolledBack? (d : Dag) : Option Bool :=
  if d.isFailed && d.operator == .rollback then d.failedTask?.map Option.isNone else some false

/-- Changes the first element for which the test holds. -/
def modifyFirst {α : Type} (p : α → Bool) (f : α → α) : List α → List α
  | [] => []
  | a :: rest => if p a then f a :: rest else a :: modifyFirst p f rest

/-- Changes the first task with that identifier. -/
def modifyTask (d : Dag) (id : TaskId) (f : Task → Task) : Dag :=
  let inNode (n : Node) : Node := { n with tasks := modifyFirst (·.id == id) f n.tasks }
  { d with nodes := modifyFirst (fun n => n.tasks.any (·.id == id)) inNode d.nodes }

def mapTasks (d : Dag) (f : Task → Task) : Dag :=
  { d with nodes := d.nodes.map fun n => { n with tasks := n.tasks.map f } }

def modifyCurrent (d : Dag) (f : Node → Node) : Dag :=
  { d with nodes := if d.stage = 0 then d.nodes else d.nodes.modify (d.stage - 1) f }

end Dag

end Stagewise
