import Stagewise.Operation.Registry
import Stagewise.Spec
import Stagewise.Text.Blank
/-!
# Building dags

A specification becomes a dag when its name is not blank, it has nodes, every node has tasks, and
the type of every task is registered. The tasks take their capabilities from their types, once and
for all.
-/

namespace Stagewise

/-- Where the identifiers of a new dag come from: one for the dag, and one for each task by node and
place, both counted from zero. -/
structure FreshIds where
  dag : DagId
  task : Nat → Nat → TaskId

namespace DagSpec

/-- A task as it is made, before it has run. -/
def makeTask (r : Registry) (id : TaskId) (t : TaskSpec) : EngineResult Task := do
  let capabilities ← r.capabilities t.typeName
  return { id, name := t.name, typeName := t.typeName,
           context := { TaskContext.new t.agent with params := t.params }, capabilities,
           status := .pending, agentResults := .empty, startedAt := none, finishedAt := none }

def makeNode (r : Registry) (ids : Nat → TaskId) (n : NodeSpec) : EngineResult Node := do
  if n.tasks.isEmpty then throw (.invalidDag s!"node '{n.name}' has no tasks")
  let tasks ← n.tasks.zipIdx.mapM fun (t, j) => makeTask r (ids j) t
  return { name := n.name, participants := n.participants, tasks }

/-- The dag that a specification describes, at its first stage and not yet started. -/
def build (spec : DagSpec) (r : Registry) (ids : FreshIds) (now : Timestamp) :
    EngineResult Dag := do
  if Text.isBlankText spec.name then throw (.invalidDag "dag name must not be empty")
  if spec.nodes.isEmpty then throw (.invalidDag s!"dag '{spec.name}' has no nodes")
  let nodes ← spec.nodes.zipIdx.mapM fun (n, i) => makeNode r (ids.task i) n
  return { id := ids.dag, name := spec.name, kind := spec.kind, nodes, stage := 1,
           maxStage := nodes.length, status := .running, operator := .run, version := 0,
           createdAt := now, updatedAt := now }

end DagSpec

end Stagewise
