import Stagewise.Json.Decode
/-!
# Statuses

The statuses of tasks, nodes and dags with their names.
-/

namespace Stagewise

/-- The status of a single task. -/
inductive TaskStatus where
  | pending | running | succeeded | failed | skipped | rolledBack
  deriving DecidableEq, Repr, Inhabited

namespace TaskStatus

/-- The name of a status. -/
def text : TaskStatus → String
  | .pending => "pending"
  | .running => "running"
  | .succeeded => "succeeded"
  | .failed => "failed"
  | .skipped => "skipped"
  | .rolledBack => "rolled_back"

instance : ToString TaskStatus := ⟨text⟩

def isTerminal : TaskStatus → Bool
  | .succeeded | .failed | .skipped | .rolledBack => true
  | .pending | .running => false

/-- Over and not failed: the stage may be left. -/
def isDone : TaskStatus → Bool
  | .succeeded | .skipped => true
  | _ => false

/-- The task has run, or has started to, and may have to be compensated. -/
def isExecuted : TaskStatus → Bool
  | .running | .succeeded | .failed => true
  | _ => false

def named : List (String × TaskStatus) :=
  [.pending, .running, .succeeded, .failed, .skipped, .rolledBack].map fun s => (s.text, s)

instance : Document TaskStatus where
  toJson s := .text s.text
  ofJson := Decode.case named "TaskStatus"

end TaskStatus

/-- The status of a node, which follows from those of its tasks. A node is skipped when every task
is. -/
inductive NodeStatus where
  | pending | running | succeeded | failed | skipped | rolledBack
  deriving DecidableEq, Repr, Inhabited

namespace NodeStatus

/-- The name of a status. -/
def text : NodeStatus → String
  | .pending => "pending"
  | .running => "running"
  | .succeeded => "succeeded"
  | .failed => "failed"
  | .skipped => "skipped"
  | .rolledBack => "rolled_back"

/-- The name of a status as a title. -/
def title : NodeStatus → String
  | .pending => "Pending"
  | .running => "Running"
  | .succeeded => "Succeeded"
  | .failed => "Failed"
  | .skipped => "Skipped"
  | .rolledBack => "RolledBack"

def isDone : NodeStatus → Bool
  | .succeeded | .skipped => true
  | _ => false

def named : List (String × NodeStatus) :=
  [.pending, .running, .succeeded, .failed, .skipped, .rolledBack].map fun s => (s.text, s)

instance : Document NodeStatus where
  toJson s := .text s.text
  ofJson := Decode.case named "NodeStatus"

end NodeStatus

/-- The status of a whole dag. -/
inductive DagStatus where
  | running | succeeded | failed | cancelled
  deriving DecidableEq, Repr, Inhabited

namespace DagStatus

def text : DagStatus → String
  | .running => "running"
  | .succeeded => "succeeded"
  | .failed => "failed"
  | .cancelled => "cancelled"

instance : ToString DagStatus := ⟨text⟩

def title : DagStatus → String
  | .running => "Running"
  | .succeeded => "Succeeded"
  | .failed => "Failed"
  | .cancelled => "Cancelled"

/-- Nothing more happens unless the operator asks for it. -/
def isFinished : DagStatus → Bool
  | .running => false
  | _ => true

def named : List (String × DagStatus) :=
  [.running, .succeeded, .failed, .cancelled].map fun s => (s.text, s)

instance : Document DagStatus where
  toJson s := .text s.text
  ofJson := Decode.case named "DagStatus"

end DagStatus

end Stagewise
