import Stagewise.Dag.Basic
/-!
# Milestones

What an operator is told about a dag that is watched: each stage that is reached, and how the dag
ended.
-/

namespace Stagewise

/-- A milestone of a watched dag. -/
inductive Milestone where
  | stageStarted (dag : Dag) (stage : Nat)
  | succeeded (dag : Dag)
  | failed (dag : Dag) (node : String) (task : Option Task) (logs : List LogEntry)
  | rolledBack (dag : Dag)
  | cancelled (dag : Dag)
  deriving Repr

namespace Milestone

/-- The name of the node at a stage, empty when there is none. -/
def nodeName (dag : Dag) (stage : Nat) : String :=
  if stage = 0 then "" else (dag.nodes[stage - 1]?.map (·.name)).getD ""

/-- The lines that a milestone is shown with. Undefined for a dag that succeeded at a stage beyond
its nodes. -/
def lines? : Milestone → Option (List String)
  | .stageStarted dag stage =>
    some [s!"[{toString stage}/{toString dag.maxStage}] {nodeName dag stage}"]
  | .succeeded dag => dag.currentNode?.map fun node =>
    [s!"[{toString dag.maxStage}/{toString dag.maxStage}] {node.name} done",
      s!"Congratulations! '{dag.name}' task completed successfully."]
  | .failed dag node task logs =>
    let shown := match task with
      | some t => s!"Task '{t.name}' ({t.id}) failed, last log lines:" :: logs.map fun e =>
        "  " ++ e.text
      | none => []
    some (shown ++ [s!"Sorry, task '{dag.name}' failed at stage '{node}'."])
  | .rolledBack dag => some [s!"Task '{dag.name}' has been rolled back."]
  | .cancelled dag => some [s!"Task '{dag.name}' cancelled."]

end Milestone

end Stagewise
