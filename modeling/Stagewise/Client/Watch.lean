import Stagewise.Client.Milestone
/-!
# Watching

What a watch makes of one record after another: it tells of every stage that is reached once and in
order, and knows when to look again, when to stop, and when to give up. After a cancellation it
looks again at most thirty times for the record to be final.
-/

namespace Stagewise

/-- What a watch has told of so far, and how often it may still look after a cancellation. -/
structure Watch where
  reported : Nat := 0
  checksLeft : Nat := 30
  deriving DecidableEq, Repr, Inhabited

namespace Watch

/-- What a watch does after a record. -/
inductive Next where
  | finish
  | giveUp
  | check (w : Watch)
  | poll (w : Watch)
  deriving DecidableEq, Repr

/-- How long a watch waits between two looks after a cancellation. -/
def checkMs : Nat := 100

/-- The stages that a record reaches for the first time. -/
def newStages (w : Watch) (d : Dag) : List Nat :=
  List.range' (w.reported + 1) (d.stage - w.reported)

/-- What a watch does after a record, once it has told of the new stages. -/
def next (w : Watch) (isCancelled : Bool) (d : Dag) : Next :=
  let reported := max w.reported d.stage
  if d.isFinished then .finish
  else if isCancelled then
    match w.checksLeft with
    | 0 => .giveUp
    | left + 1 => .check ⟨reported, left⟩
  else .poll { w with reported }

def gaveUpMessage (d : Dag) : String := s!"dag {d.id} is still {d.status.title} after cancellation"

end Watch

/-- How a finished dag ended: well, with a milestone, or badly at a node, with the failed task if
there is one. -/
inductive Verdict where
  | well (milestone : Milestone)
  | badly (node : String) (task : Option Task)
  deriving Repr

/-- How a finished dag ended. Undefined when that depends on a stage that lies beyond the nodes. -/
def Dag.verdict? (d : Dag) : Option Verdict :=
  match d.status with
  | .succeeded => some (.well (.succeeded d))
  | .cancelled => some (.well (.cancelled d))
  | .running | .failed => do
    if ← d.isRolledBack? then return .well (.rolledBack d)
    match ← d.failedTask? with
    | some (node, task) => return .badly node.name (some task)
    | none => d.currentNode?.map fun node => .badly node.name none

end Stagewise
