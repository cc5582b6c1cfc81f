import Stagewise.Dispatch.Message
import Stagewise.Dispatch.Runner
import Stagewise.Engine.Step
/-!
# Folding reports

When every agent that a stage was sent to has answered, the answers are folded into the tasks. A
task fails when one of its reports is an error or a failure, and the first of these is its error;
its context becomes the one that the agent doing the work sent back.
-/

namespace Stagewise

/-- What one agent answered about one task. -/
structure Report where
  task : TaskId
  agent : Agent
  result : EngineResult Outcome
  deriving Repr

/-- A task while its reports are folded: its first error, and the lines to log. -/
structure Folding where
  task : Task
  error : Option String
  lines : List String
  deriving Repr

namespace Folding

/-- Keeps the first error. -/
def note (f : Folding) (message : String) : Folding := { f with error := f.error <|> some message }

def enter (f : Folding) (agent : Agent) (status : TaskStatus) : Folding :=
  { f with
    task := { f.task with agentResults := f.task.agentResults.insert agent.text status } }

/-- Takes over the context that the agent doing the work sent back. -/
def adopt (f : Folding) (agent : Agent) (context : TaskContext) : Folding :=
  if agent = f.task.agent then { f with task := { f.task with context } } else f

/-- Folds one report. -/
def add (f : Folding) (r : Report) : Folding :=
  match r.result with
  | .ok outcome =>
    let f := f.enter r.agent outcome.status
    let f :=
      if outcome.status = .failed then f.note (outcome.error.getD s!"failed on agent {r.agent}")
      else f
    f.adopt r.agent outcome.context
  | .error e =>
    let f := f.enter r.agent .failed
    { f.note e.message with lines := f.lines ++ [e.message] }

def close (f : Folding) (action : Action) (now : Timestamp) : Task :=
  { f.task with finishedAt := some now,
                status := if f.error.isSome then .failed else action.success }

def event (f : Folding) (action : Action) : EventType :=
  match f.error with
  | some error => .taskFailed f.task.id error
  | none => match action with
    | .execute => .taskSucceeded f.task.id
    | .rollback => .taskRolledBack f.task.id

end Folding

/-- A dag with reports folded in: the events to journal, the lines to log, and the first failure. -/
structure Folded where
  dag : Dag
  events : List EventType
  lines : List (TaskId × String)
  failure : Option String
  deriving Repr

namespace Folded

/-- Folds the reports about one task. Reports about a task that is not there are dropped. -/
def addTask (action : Action) (now : Timestamp) (reports : List Report) (f : Folded) (id : TaskId) :
    Folded :=
  match f.dag.task? id with
  | none => f
  | some task =>
    let folding := (reports.filter (·.task == id)).foldl Folding.add ⟨task, none, []⟩
    { dag := f.dag.modifyTask id fun _ => folding.close action now,
      events := f.events ++ [folding.event action],
      lines := f.lines ++ folding.lines.map fun s => (id, s),
      failure := f.failure <|> folding.error.map fun e => s!"task '{task.name}' failed: {e}" }

end Folded

/-- Folds reports into a dag, task by task in the order in which the tasks are first reported. -/
def Dag.applyReports (d : Dag) (reports : List Report) (action : Action) (now : Timestamp) :
    Folded :=
  ((reports.map (·.task)).eraseDups).foldl (Folded.addTask action now reports) ⟨d, [], [], none⟩

/-- Folds the reports of a barrier. A failed rollback ends the dag as failed. -/
def Dag.settle (d : Dag) (reports : List Report) (action : Action) (now : Timestamp) : Folded :=
  let f := d.applyReports reports action now
  match action, f.failure with
  | .rollback, some error =>
    { f with dag := { f.dag with status := .failed },
             events := f.events ++ [.dagFailed d.stage error] }
  | _, _ => f

end Stagewise
