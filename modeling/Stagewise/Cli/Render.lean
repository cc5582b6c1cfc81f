import Stagewise.Api.Message
/-!
# Plain text for the terminal

The lines in which dags, operation types and events are shown. Columns are filled up with blanks,
counted in characters.
-/

namespace Stagewise.Cli

def column (width : Nat) (s : String) : String :=
  s ++ String.ofList (List.replicate (width - s.length) ' ')

def dagListLines (dags : List Dag) : List String :=
  if dags.isEmpty then ["No dags"]
  else dags.map fun d =>
    s!"{d.id}  {column 10 d.status.text} {toString d.stage}/{toString d.maxStage}  {d.createdAt.plain}  {d.name}"

def taskLines (t : Task) : List String :=
  s!"      {t.id}  {column 11 t.status.text} {t.name} ({t.typeName}) on {t.agent}" ::
    t.agentResults.rows.map fun (agent, status) => s!"          {agent} {status}"

/-- A node with its tasks; the one at work is marked. -/
def nodeLines (stage number : Nat) (n : Node) : List String :=
  let marker := if number = stage then ">" else " "
  s!"{marker} [{toString number}] {n.name} ({n.status.title})" :: n.tasks.flatMap taskLines

def dagLines (d : Dag) : List String :=
  s!"{d.name} ({d.id})" ::
  s!"  status: {d.status}  stage: {toString d.stage}/{toString d.maxStage}  operator: {d.operator}"
    :: (d.nodes.zipIdx 1).flatMap fun (n, number) => nodeLines d.stage number n

/-- What operators may do to a task, in few words. -/
def capabilityList (c : Capabilities) : String :=
  let flags :=
    [(c.canContinue, "continue"), (c.canRetry, "retry"), (c.canPass, "pass"),
     (c.canRollback, "rollback"), (c.canCancel, "cancel")]
  let names := (flags.filter (·.1)).map (·.2)
  if names.isEmpty then "-" else String.intercalate "," names

def operationLines (operations : List OperationInfo) : List String :=
  operations.map fun o => s!"{column 20 o.typeName} {capabilityList o.capabilities}"

/-- An event in words. -/
def describe : EventType → String
  | .dagSubmitted name maxStage => s!"submitted '{name}' with {toString maxStage} stage(s)"
  | .dagSucceeded => "dag succeeded"
  | .dagFailed stage error => s!"dag failed at stage {toString stage}: {error}"
  | .dagCancelled => "dag cancelled"
  | .dagRolledBack => "dag rolled back"
  | .dagRecovered stage => s!"resumed at stage {toString stage} after restart"
  | .stageStarted stage node => s!"stage {toString stage} '{node}' started"
  | .stageAdvanced source target => s!"advanced from stage {toString source} to {toString target}"
  | .stageRolledBack stage node => s!"stage {toString stage} '{node}' rolled back"
  | .taskDispatched task agent action => s!"task {task} dispatched to {agent} ({action.title})"
  | .taskSucceeded task => s!"task {task} succeeded"
  | .taskFailed task error => s!"task {task} failed: {error}"
  | .taskRolledBack task => s!"task {task} rolled back"
  | .operatorCommand operator => s!"operator {operator}"

def eventLines (events : List Event) : List String :=
  events.map fun e => s!"{e.timestamp.withMillis}  {describe e.type}"

def printed (lines : List String) : String := String.join (lines.map (· ++ "\n"))

end Stagewise.Cli
