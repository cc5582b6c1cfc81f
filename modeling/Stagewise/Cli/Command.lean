import Stagewise.Agent
import Stagewise.Operator
import Stagewise.Uuid
/-!
# Commands

What can be asked for on the command line.
-/

namespace Stagewise.Cli

/-- How a dag is followed. -/
structure Following where
  agent : Option Agent := none
  upgrade : Bool := false
  retryTimes : Nat := 3
  logTail : Nat := 20
  deriving DecidableEq, Repr, Inhabited

/-- A command. What is submitted or steered is followed to its end unless it is told otherwise. -/
inductive Command where
  | health
  | operations
  | submit (file : String) (isLeft : Bool) (following : Following)
  | list
  | view (dag : DagId)
  | watch (dag : DagId) (following : Following)
  | steer (operator : Operator) (dag : DagId) (isLeft : Bool) (following : Following)
  | cancel (dag : DagId)
  | logs (dag : DagId) (task : TaskId) (tail : Option Nat)
  | events (dag : DagId)
  deriving DecidableEq, Repr

/-- A command with the agent that it goes to and the token shown there. -/
structure Invocation where
  server : String
  token : Option String
  command : Command
  deriving DecidableEq, Repr

end Stagewise.Cli
