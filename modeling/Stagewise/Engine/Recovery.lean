import Stagewise.Engine.Step
import Stagewise.Operation.Registry
/-!
# Recovery

What becomes of a task that was running when the process stopped: it runs again if its type is known
and it may go on, and fails otherwise.
-/

namespace Stagewise

/-- The new status of an interrupted task and the line that says why. -/
def Registry.recovered (r : Registry) (t : Task) : TaskStatus × String :=
  match r.find t.typeName with
  | .error e => (.failed, e.message)
  | .ok _ =>
    if t.capabilities.canContinue then (.pending, "interrupted by agent restart, resuming")
    else (.failed, "interrupted by agent restart and cannot be continued")

def Dag.interrupted (d : Dag) : List Task := d.tasks.filter (·.status == .running)

end Stagewise
