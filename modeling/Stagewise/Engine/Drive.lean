import Stagewise.Engine.Basic
/-!
# Drive loops

A drive loop takes step after step of its dag until the dag no longer runs. At a stage it sends the
tasks out and waits until every call has ended; then it reads the record again, folds the reports
in, and goes on. A loop that finds its record changed underneath reads it again; any other failure
ends the loop.
-/

namespace Stagewise

namespace Call

/-- The moment at which a call next does something, and the moment since which it has waited for
it. -/
def next? (c : Call) : Option (Nat × Nat) :=
  if c.ended then none
  else
    match c.lines, c.ending with
    | l :: _, _ => some (l.due, l.since)
    | [], some e => some (e.due, e.since)
    | [], none => none

def report? (c : Call) : Option Report :=
  match c.ended, c.ending with
  | true, some e => some ⟨c.task, c.agent, e.result⟩
  | _, _ => none

/-- Whether a call has ended by a moment. -/
def endsBy (c : Call) (ms : Nat) : Bool :=
  match c.ending with
  | some e => e.due ≤ ms
  | none => false

/-- The lines that a call itself logs up to a moment. -/
def dueLines (c : Call) (ms : Nat) : List String :=
  (c.lines.filter (·.due ≤ ms)).map (·.text)

/-- The lines that are sent back with the outcome, if they are to be kept. -/
def sentBack (c : Call) : List LogEntry :=
  match c.keepsLogs, c.ending with
  | true, some ⟨_, _, .ok outcome⟩ => outcome.logs
  | _, _ => []

/-- The lines that have come back when a call is first seen to have ended. -/
def brought (c : Call) (ms : Nat) : List LogEntry :=
  if !c.ended && c.endsBy ms then c.sentBack else []

def afterMoment (c : Call) (ms : Nat) : Call :=
  { c with lines := c.lines.filter fun l => !(l.due ≤ ms), ended := c.ended || c.endsBy ms }

/-- An outcome whose lines cannot be kept is none: the call ends with the error of the store. -/
def unkept (c : Call) (failure : Failure) : Call :=
  { c with ending := c.ending.map fun x => { x with result := .error (.storage failure) } }

end Call

namespace Engine

variable {σ : Type}

/-- Counts a call of an operation and gives the number of those before it. -/
def countCall (typeName : String) (action : Action) : EngineM σ Nat :=
  modifyGet fun e =>
    let (n, m) := (e.invocations.get? typeName).getD (0, 0)
    match action with
    | .execute => (n, { e with invocations := e.invocations.insert typeName (n + 1, m) })
    | .rollback => (m, { e with invocations := e.invocations.insert typeName (n, m + 1) })

/-- Runs a dispatch in this process under the identity of the agent it is sent to. -/
def callHere (agent : Agent) (request : DispatchRequest) : EngineM σ Call := do
  let e ← get
  let start := e.clock.ms
  let nth ←
    if Runner.calls e.registry agent request then
      countCall request.task.typeName request.action
    else pure 0
  let (t, error) := Runner.timeline e.registry agent request nth .never
  let outcome := Runner.outcome agent request t error e.clock.after
  return { task := request.task.id, agent,
           lines := t.moments.filterMap fun m => match m.deed with
             | .line s => some ⟨start + m.since, start + m.at', s⟩
             | .context _ => none,
           ending := t.ending.map fun x => ⟨start + x.since, start + x.at', .ok outcome⟩,
           keepsLogs := false, ended := false }

/-- Sends a task to an agent. -/
def call (agent : Agent) (request : DispatchRequest) : EngineM σ Call := do
  let e ← get
  let (delivery, outside) := (← read).reach e.outside e.clock agent request
  modify fun e => { e with outside }
  match delivery with
  | .inProcess => callHere agent request
  | .settles after result keepsLogs =>
    let start := e.clock.ms
    return { task := request.task.id, agent, lines := [],
             ending := after.map fun ms => ⟨start, start + ms, result⟩, keepsLogs, ended := false }

/-- Sends the tasks of a stage out. Every dispatch is journaled before the first one goes out. -/
def sendOut (dag : DagId) (batch : Batch) (action : Action) : EngineM σ (List Call) := do
  let requests := batch.flatMap fun (t, targets) =>
    targets.map fun a => (a, ({ dagId := dag, task := t, action } : DispatchRequest))
  requests.forM fun (a, r) => record dag (.taskDispatched r.task.id a r.action)
  requests.mapM fun (a, r) => call a r

/-- Lets calls do what they do up to the present moment, one after another. -/
def attend (calls : List Call) : EngineM σ (List Call) :=
  calls.mapM fun c => do
    let ms := (← get).clock.ms
    (c.dueLines ms).forM (log c.task)
    match ← keep c.task (c.brought ms) with
    | .ok () => return c.afterMoment ms
    | .error f => return (c.afterMoment ms).unkept f

/-- Folds the reports of a stage into the record, unless the dag no longer runs at that stage. -/
def foldReports (dag : DagId) (action : Action) (stage : Nat) (reports : List Report) :
    EngineM σ Unit := do
  let d ← load dag
  if d.isRunning && d.stage == stage then
    let f := d.settle reports action (← now)
    let _ ← commit f.dag
    logAll f.lines
    recordAll dag f.events

/-- What a step of a drive loop comes to. A loop that breaks off is not taken off the register. -/
inductive StepResult where
  | goesOn
  | waits (action : Action) (stage : Nat) (calls : List Call)
  | stops
  | breaksOff

/-- A step of a drive loop. -/
def takeStep (dag : DagId) : EngineM σ StepResult := do
  let d ← load dag
  if !d.isRunning then return .stops
  let move ← checked (d.step (← now))
  let d ← match move.write with
    | some d => commit d
    | none => pure d
  recordAll dag move.events
  match move.batch with
  | none => return .goesOn
  | some batch => return .waits d.direction d.stage (← sendOut dag batch d.direction)

/-- What a drive loop does about a fault: it reads the record again when that was changed
underneath, and otherwise ends. -/
def afterFault : Fault → EngineM σ StepResult
  | .error (.versionConflict ..) => return .goesOn
  | .error _ => return .stops
  | .stageOutOfRange => return .breaksOff

/-- Lets a drive loop go on until it has to wait or ends. -/
def drive (dag : DagId) (generation : Nat) : (fuel : Nat) → Phase → EngineM σ (Option Phase)
  | 0, phase => return some phase
  | fuel + 1, .ready => do
    match ← tryCatch (takeStep dag) afterFault with
    | .goesOn => drive dag generation fuel .ready
    | .waits action stage calls => drive dag generation fuel (.waiting action stage calls)
    | .stops =>
      deregister dag generation
      return none
    | .breaksOff => return none
  | fuel + 1, .waiting action stage calls => do
    let calls ← attend calls
    if calls.all (·.ended) then
      let fold : EngineM σ StepResult := do
        foldReports dag action stage (calls.filterMap Call.report?)
        return .goesOn
      match ← tryCatch fold afterFault with
      | .stops =>
        deregister dag generation
        return none
      | .breaksOff => return none
      | _ => drive dag generation fuel .ready
    else return some (.waiting action stage calls)

end Engine

end Stagewise
