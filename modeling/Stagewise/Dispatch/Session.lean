import Stagewise.Dispatch.Runner
/-!
# Sessions

A dispatch while it is worked on. Every line that is logged is kept for the outcome and offered to a
sink at once, which may refuse it. The work goes on until it ends by itself or is broken off, which
it can be only where it waits.
-/

namespace Stagewise

/-- Where the lines of tasks go as they are logged, with states of type `σ`. A line that is refused
may have left its traces all the same. -/
structure Sink (σ : Type) where
  append : TaskId → LogEntry → σ → Except Failure Unit × σ

/-- The lines of a task, and the sink that they are offered to. -/
structure Logger (σ : Type) where
  taskId : TaskId
  entries : List LogEntry
  sink : Option (Sink σ)
  state : σ

/-- Keeps a line, whatever the sink makes of it. -/
def Logger.log {σ : Type} (l : Logger σ) (entry : LogEntry) : Logger σ :=
  { l with
    entries := l.entries ++ [entry]
    state := match l.sink with
      | some sink => (sink.append l.taskId entry l.state).2
      | none => l.state }

/-- A run with everything it carries. -/
structure Session (σ : Type) where
  dagId : DagId
  taskId : TaskId
  context : TaskContext
  localAgent : Agent
  logger : Logger σ

/-- A session whose work is over: how it has ended, and when. -/
structure Performance (σ : Type) where
  session : Session σ
  result : Except Failure Unit
  at' : Nat

namespace Session

variable {σ : Type}

def start (agent : Agent) (request : DispatchRequest) (sink : Option (Sink σ)) (state : σ) :
    Session σ :=
  ⟨request.dagId, request.task.id, request.task.context, agent, ⟨request.task.id, [], sink, state⟩⟩

def log (s : Session σ) (entry : LogEntry) : Session σ := { s with logger := s.logger.log entry }

def change (s : Session σ) (f : TaskContext → TaskContext) : Session σ :=
  { s with context := f s.context }

/-- What the work sees of its session. -/
def view (s : Session σ) : Run :=
  ⟨s.dagId, s.taskId, s.context, s.localAgent, s.logger.entries.map (·.message)⟩

def outcome (s : Session σ) (action : Action) (error : Option String) : Outcome :=
  { taskId := s.taskId, agent := s.localAgent,
    status := if error.isSome then .failed else action.success,
    error, context := s.context, logs := s.logger.entries }

end Session

/-- Performs a program in a session from an instant on, if it comes to an end. -/
def Program.perform {σ : Type} (stop : Stop) (stamp : Nat → Timestamp) :
    Program → Instant → Session σ → Option (Performance σ)
  | .done, now, s => some ⟨s, .ok (), now.ms⟩
  | .fail failure, now, s => some ⟨s, .error failure, now.ms⟩
  | .log line next, now, s => next.perform stop stamp now.next (s.log ⟨stamp now.ms, line⟩)
  | .change f next, now, s => next.perform stop stamp now.next (s.change f)
  | .look next, now, s => (next s.view).perform stop stamp now.next s
  | .ask next, now, s => (next (stop.told now)).perform stop stamp now.next s
  | .wait ms listens next told, now, s =>
    match stop.wait? listens now (ms.map now.after) with
    | some (.passed later) => next.perform stop stamp later s
    | some (.told later) => told.perform stop stamp later s
    | some (.brokenOff moment) => some ⟨s, .error .cancelled, moment⟩
    | none => none

/-- The session and its error after the work; a failure is logged as its chain of causes. -/
def Performance.conclude {σ : Type} (p : Performance σ) (stamp : Nat → Timestamp) :
    Session σ × Option String :=
  match p.result with
  | .ok () => (p.session, none)
  | .error failure =>
    (p.session.log ⟨stamp p.at', failure.inline⟩,
      some (EngineError.taskFailed failure.inline).message)

/-- A dispatch that has been answered: the outcome, the state of the sink, whether the operation was
invoked, and how long it took. -/
structure Attempt (σ : Type) where
  outcome : Outcome
  state : σ
  invoked : Bool
  took : Nat

namespace Runner

variable {σ : Type}

/-- The work of an operation in a session. -/
def work (operation : Operation) (action : Action) (call : Nat) (stop : Stop)
    (stamp : Nat → Timestamp) (s : Session σ) : Option (Performance σ) :=
  if stop.forestalls then some ⟨s, .error .cancelled, 0⟩
  else (operation.program action call).perform stop stamp .start s

/-- Answers a dispatch as an agent, if the work comes to an end. -/
def attempt (registry : Registry) (agent : Agent) (request : DispatchRequest) (call : Nat)
    (stop : Stop) (stamp : Nat → Timestamp) (sink : Option (Sink σ)) (state : σ) :
    Option (Attempt σ) :=
  let session := Session.start agent request sink state
  match respond registry agent request with
  | .immediate line error =>
    let session := session.log ⟨stamp 0, line⟩
    some ⟨session.outcome request.action error, session.logger.state, false, 0⟩
  | .runs operation =>
    (work operation request.action call stop stamp session).map fun p =>
      let (session, error) := p.conclude stamp
      ⟨session.outcome request.action error, session.logger.state, !stop.forestalls, p.at'⟩

end Runner

end Stagewise
