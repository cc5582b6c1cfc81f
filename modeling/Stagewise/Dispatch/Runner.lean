import Stagewise.Operation.Registry
/-!
# Running dispatched tasks

The receiving side of a dispatch. Only the agent that does the work of a task runs its operation;
every other participant acknowledges with one line. What a run does over time is its timeline, and
its outcome follows from it.
-/

namespace Stagewise

/-- The status that a task reaches when a direction ends well. -/
def Action.success : Action → TaskStatus
  | .execute => .succeeded
  | .rollback => .rolledBack

namespace Runner

/-- How an agent answers a dispatch: at once with an outcome and its only line, or by running an
operation. -/
inductive Response where
  | immediate (line : String) (error : Option String)
  | runs (operation : Operation)

/-- How an agent answers a dispatch. -/
def respond (registry : Registry) (agent : Agent) (request : DispatchRequest) : Response :=
  match registry.find request.task.typeName with
  | .error e => .immediate e.message (some e.message)
  | .ok operation =>
    if agent = request.task.agent then .runs operation
    else .immediate s!"{agent} is not the execute agent ({request.task.agent}), skipped" none

/-- Whether a dispatch to the agent calls a behaviour of the operation. -/
def calls (registry : Registry) (agent : Agent) (request : DispatchRequest) : Bool :=
  match respond registry agent request with
  | .immediate .. => false
  | .runs operation => operation.behaves request.action

def start (agent : Agent) (request : DispatchRequest) : Run :=
  ⟨request.dagId, request.task.id, request.task.context, agent, []⟩

/-- What the operation of a dispatch does over time. -/
def worked (operation : Operation) (agent : Agent) (request : DispatchRequest) (call : Nat)
    (stop : Stop) : Timeline :=
  if stop.forestalls then ⟨[], some ⟨0, 0, .error .cancelled⟩⟩
  else (operation.program request.action call).play stop 0 .start (start agent request)

/-- The timeline of a dispatch, and the error of one that is refused. A failed run logs its chain of
causes last. -/
def timeline (registry : Registry) (agent : Agent) (request : DispatchRequest) (call : Nat)
    (stop : Stop) : Timeline × Option String :=
  match respond registry agent request with
  | .immediate line error => (⟨[⟨0, 0, .line line⟩], some ⟨0, 0, .ok ()⟩⟩, error)
  | .runs operation =>
    let t := worked operation agent request call stop
    match t.ending with
    | some ⟨since, at', .error failure⟩ =>
      ({ t with moments := t.moments ++ [⟨since, at', .line failure.inline⟩] },
        some (EngineError.taskFailed failure.inline).message)
    | _ => (t, none)

/-- The outcome of a timeline that has ended; lines are stamped by their moments. -/
def outcome (agent : Agent) (request : DispatchRequest) (t : Timeline) (error : Option String)
    (stamp : Nat → Timestamp) : Outcome :=
  { taskId := request.task.id, agent,
    status := if error.isSome then .failed else request.action.success,
    error, context := t.contextAfter request.task.context,
    logs := t.lines.map fun (ms, s) => ⟨stamp ms, s⟩ }

/-- Runs a dispatch to its end, if it has one: the outcome, and how long it took. -/
def run (registry : Registry) (agent : Agent) (request : DispatchRequest) (call : Nat)
    (stop : Stop) (stamp : Nat → Timestamp) : Option (Outcome × Nat) :=
  let (t, error) := timeline registry agent request call stop
  t.ending.map fun e => (outcome agent request t error stamp, e.at')

end Runner

end Stagewise
