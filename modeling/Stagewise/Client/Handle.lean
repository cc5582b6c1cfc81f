import Stagewise.Client.Basic
import Stagewise.Client.Watch
/-!
# Handles on a dag

A handle fetches the record of one dag, gives commands to it, and watches it to its end. Failures of
a fetch that may mend are borne a number of times, and are never taken for a failure that a record
tells of.
-/

namespace Stagewise

/-- A handle on one dag at an agent. The client does not repeat reads by itself. -/
structure Handle where
  client : Client
  dag : DagId
  retryTimes : Nat := 3
  upgrade : Bool := false
  pollMs : Nat := 1000
  backoffMs : Nat := 1000
  logTail : Nat := 20
  deriving DecidableEq, Repr

/-- What a watch needs besides a wire: someone to tell of milestones, who may be unable to, a flag
that is raised when the watch should hurry, a way to raise it, and a way to rest that the flag cuts
short. -/
structure Observer (m : Type → Type) extends Wire m where
  tell : Milestone → m Bool
  isCancelled : m Bool
  raise : m Unit
  rest : (ms : Nat) → m Unit

/-- What a watch comes to. -/
inductive Watched where
  | ended (result : Except ClientError Dag)
  | stageOutOfRange
  deriving Repr

namespace Handle

/-- A handle with the standard settings. -/
def new (client : Client) (dag : DagId) : Handle := { client := client.withoutRetries, dag }

def withAgent (h : Handle) (a : Agent) : Except ClientError Handle := do
  let client ← h.client.forAgent a
  return { h with client }

variable {m : Type → Type} [Monad m]

/-- Fetches the record once. A handle on an upgrade asks on the path that knows upgrades only, and
on the plain path when there is no such upgrade. -/
def fetchOnce (w : Wire m) (h : Handle) : m (Except ClientError Dag) := do
  if h.upgrade then
    match ← h.client.perform w (.upgradeDag h.dag) with
    | .error (.notFound _) => h.client.perform w (.dag h.dag)
    | r => return r
  else h.client.perform w (.dag h.dag)

/-- Fetches the record and, after failures that may mend, at most `left` times again. -/
def fetchRepeatedly (w : Wire m) (h : Handle) : (left : Nat) → m (Except ClientError Dag)
  | 0 => h.fetchOnce w
  | left + 1 => do
    match ← h.fetchOnce w with
    | .ok d => return .ok d
    | .error e =>
      if e.isRetryable then
        w.pause h.backoffMs
        h.fetchRepeatedly w left
      else return .error e

/-- Fetches the record, bearing as many failures as the handle bears. -/
def fetch (w : Wire m) (h : Handle) : m (Except ClientError Dag) := h.fetchRepeatedly w h.retryTimes

def command (w : Wire m) (h : Handle) (operator : Operator) : m (Except ClientError Dag) :=
  h.client.perform w (.operate h.dag operator)

/-- Cancels the dag, and raises the flag when that is accepted. -/
def cancel (o : Observer m) (h : Handle) : m (Except ClientError Dag) := do
  match ← h.command o.toWire .cancel with
  | .ok d =>
    o.raise
    return .ok d
  | .error e => return .error e

/-- The last lines of a task's log, none if they cannot be had. -/
def logsOf (w : Wire m) (h : Handle) (d : Dag) (task : Option Task) : m (List LogEntry) := do
  match task with
  | none => return []
  | some t =>
    match ← h.client.perform w (.taskLogs d.id t.id (some h.logTail)) with
    | .ok logs => return logs
    | .error _ => return []

/-- Tells how a finished dag ended. -/
def finish (o : Observer m) (h : Handle) (d : Dag) : m Watched := do
  match d.verdict? with
  | none => return .stageOutOfRange
  | some (.well milestone) =>
    if ← o.tell milestone then return .ended (.ok d) else return .stageOutOfRange
  | some (.badly node task) =>
    let logs ← h.logsOf o.toWire d task
    if ← o.tell (.failed d node task logs) then
      return .ended (.error (.dagFailed d.name node (task.map (·.name))))
    else return .stageOutOfRange

/-- One look at the record: the watch goes on after a rest, or it is over. -/
def look (o : Observer m) (h : Handle) (w : Watch) : m (Watch ⊕ Watched) := do
  match ← h.fetch o.toWire with
  | .error e => return .inr (.ended (.error e))
  | .ok d =>
    for stage in w.newStages d do
      let _ ← o.tell (.stageStarted d stage)
    match w.next (← o.isCancelled) d with
    | .finish => return .inr (← h.finish o d)
    | .giveUp => return .inr (.ended (.error (.waitTimeout (Watch.gaveUpMessage d))))
    | .check w =>
      o.pause Watch.checkMs
      return .inl w
    | .poll w =>
      o.rest h.pollMs
      return .inl w

/-- Watches the dag to its end, with at most so many looks. -/
def watchFrom (o : Observer m) (h : Handle) : (looks : Nat) → Watch → m (Option Watched)
  | 0, _ => return none
  | looks + 1, w => do
    match ← h.look o w with
    | .inl w => h.watchFrom o looks w
    | .inr r => return some r

def patience : Nat := 1000000000000000000

def watch (o : Observer m) (h : Handle) : m (Option Watched) := h.watchFrom o patience {}

end Handle

end Stagewise
