import Stagewise.Dag.Build
import Stagewise.Engine.Clock
import Stagewise.Engine.Command
import Stagewise.Engine.Recovery
import Stagewise.Engine.Report
import Stagewise.Journal.Basic
import Stagewise.Store.Basic
/-!
# The engine

The engine of an agent: its registry, store and journal, and the drive loops that are at work. The
stored record of a dag is the only truth about it; every change is written only if the version that
was read is still the stored one. Engine operations are state transformers that may end in a fault;
what was written before a fault stays.
-/

namespace Stagewise

/-- What a compare-and-swap of the store comes to. -/
inductive SwapCondition where
  | works
  | loses
  | fails (failure : Failure)
  deriving Repr

/-- Which calls of store and journal fail. -/
structure Outages where
  swap : Nat → SwapCondition
  save : Option Failure
  list : Option Failure
  append : Option Failure
  journalFails : Bool

def Outages.none : Outages := ⟨fun _ => .works, .none, .none, .none, false⟩

/-- How a dispatch goes: the operation runs in this process and logs as it goes; or an answer comes
after a time, if ever, with or without log lines to be kept. -/
inductive Delivery where
  | inProcess
  | settles (after : Option Nat) (result : EngineResult Outcome) (keepsLogs : Bool)

/-- A line that a call will log, and when. -/
structure PlannedLine where
  since : Nat
  due : Nat
  text : String
  deriving Repr

/-- When a call ends, and with what. -/
structure PlannedEnd where
  since : Nat
  due : Nat
  result : EngineResult Outcome
  deriving Repr

/-- A dispatch on its way: the lines it has still to log, its end, and whether that has been
seen. -/
structure Call where
  task : TaskId
  agent : Agent
  lines : List PlannedLine
  ending : Option PlannedEnd
  keepsLogs : Bool
  ended : Bool
  deriving Repr

/-- What a drive loop is doing: about to take a step, or waiting for the calls of a stage. -/
inductive Phase where
  | ready
  | waiting (action : Action) (stage : Nat) (calls : List Call)
  deriving Repr

/-- A drive loop at work. -/
structure Loop where
  dag : DagId
  generation : Nat
  phase : Phase
  deriving Repr

/-- The engine of an agent and what it knows of the world outside. -/
structure Engine (σ : Type) where
  registry : Registry
  store : Store
  journal : Journal
  outages : Outages
  swaps : Nat
  clock : Clock
  active : List (DagId × Nat)
  generations : Nat
  loops : List Loop
  invocations : Named (Nat × Nat)
  created : Nat
  outside : σ

/-- How agents are reached, and where the identifiers of new dags come from. -/
structure Surroundings (σ : Type) where
  reach : σ → Clock → Agent → DispatchRequest → Delivery × σ
  freshIds : Nat → FreshIds

abbrev EngineM (σ : Type) := ReaderT (Surroundings σ) (ExceptT Fault (StateM (Engine σ)))

namespace Engine

variable {σ : Type}

/-- An engine that has nothing stored and nothing at work. -/
def new (registry : Registry) (epoch : Timestamp) (outside : σ) : Engine σ :=
  { registry, store := .empty, journal := .empty, outages := .none, swaps := 0,
    clock := ⟨epoch, 0, 0⟩, active := [], generations := 0, loops := [], invocations := .empty,
    created := 0, outside }

/-- The error of a store operation as one of the engine. -/
def stored {α : Type} : Stored α → EngineM σ α
  | .ok a => pure a
  | .error f => throw (.error (.storage f))

def checked {α : Type} : Checked α → EngineM σ α
  | .ok a => pure a
  | .error f => throw f

def now : EngineM σ Timestamp := modifyGet fun e => (e.clock.now, { e with clock := e.clock.tick })

/-- Adds an event to the journal. A journal that fails is no reason to stop. -/
def record (dag : DagId) (type : EventType) : EngineM σ Unit := do
  let timestamp ← now
  modify fun e =>
    if e.outages.journalFails then e
    else
      let id := (⟨BitVec.ofNat 128 e.clock.readings⟩ : Uuid).text
      { e with journal := (e.journal.append ⟨id, dag, timestamp, type⟩).1 }

def recordAll (dag : DagId) (types : List EventType) : EngineM σ Unit := types.forM (record dag)

/-- Adds entries to the log of a task. Nothing is written for none, and that cannot fail. -/
def keep (task : TaskId) (entries : List LogEntry) : EngineM σ (Stored Unit) :=
  modifyGet fun e =>
    match e.outages.append with
    | some f => (if entries.isEmpty then .ok () else .error f, e)
    | none => (.ok (), { e with store := e.store.appendLogs task entries })

/-- Logs a line for a task. A log that fails is no reason to stop. -/
def log (task : TaskId) (line : String) : EngineM σ Unit := do
  let _ ← keep task [⟨← now, line⟩]

def logAll (lines : LogLines) : EngineM σ Unit := lines.forM fun (task, line) => log task line

def load (dag : DagId) : EngineM σ Dag := do
  match ← stored ((← get).store.load? dag) with
  | some d => return d
  | none => throw (.error (.dagNotFound dag))

/-- Writes a record in the stead of the one that was read. -/
def commit (d : Dag) : EngineM σ Dag := do
  let t ← now
  modify fun e => { e with swaps := e.swaps + 1 }
  let e ← get
  let raised := d.raised t
  match e.outages.swap e.swaps with
  | .loses => throw (.error (.versionConflict d.id d.version))
  | .fails f => throw (.error (.storage f))
  | .works =>
    let (store, won) ← stored (e.store.compareAndSwap raised d.version)
    if won then
      modify fun e => { e with store }
      return raised
    else throw (.error (.versionConflict d.id d.version))

def isActive (e : Engine σ) (dag : DagId) : Bool := (e.active.lookup dag).isSome

/-- Starts a drive loop unless one is registered. -/
def spawn (dag : DagId) : EngineM σ Unit :=
  modify fun e =>
    if e.isActive dag then e
    else
      { e with active := e.active ++ [(dag, e.generations)], generations := e.generations + 1,
               loops := e.loops ++ [⟨dag, e.generations, .ready⟩] }

/-- Takes a drive loop off the register, if it is still the one registered. -/
def deregister (dag : DagId) (generation : Nat) : EngineM σ Unit :=
  modify fun e => { e with active := e.active.filter (· != (dag, generation)) }

/-- Stops the drive loop of a dag; what it was waiting for is dropped. -/
def stop (dag : DagId) : EngineM σ Unit :=
  modify fun e =>
    match e.active.lookup dag with
    | some generation =>
      { e with active := e.active.filter (·.1 != dag),
               loops := e.loops.filter fun l => !(l.dag == dag && l.generation == generation) }
    | none => e

/-- Builds, stores and starts a dag. -/
def submit (spec : DagSpec) : EngineM σ Dag := do
  let e ← get
  let ids := (← read).freshIds (e.created + 1)
  let d ← match spec.build e.registry ids (← now) with
    | .ok d => pure d
    | .error err => throw (.error err)
  match e.outages.save with
  | some f => throw (.error (.storage f))
  | none => modify fun e => { e with created := e.created + 1, store := e.store.save d }
  record d.id (.dagSubmitted d.name d.maxStage)
  spawn d.id
  return d

/-- Applies an operator command. -/
def command (dag : DagId) (operator : Operator) : EngineM σ Dag := do
  let d ← load dag
  let (d, lines) ← checked (d.command operator (← now))
  let d ← commit d
  logAll lines
  record dag (.operatorCommand operator)
  if operator = .cancel then
    stop dag
    record dag .dagCancelled
  else
    spawn dag
  return d

/-- Every dag, the newest first. -/
def list : EngineM σ (List Dag) := do
  let e ← get
  match e.outages.list with
  | some f => throw (.error (.storage f))
  | none => stored e.store.list

def taskLogs (dag : DagId) (task : TaskId) (tail : Option Nat) : EngineM σ (List LogEntry) := do
  let d ← load dag
  if (d.task? task).isNone then throw (.error (.taskNotFound (toString task)))
  stored ((← get).store.taskLogs task tail)

def events (dag : DagId) : EngineM σ (List Event) := do
  let _ ← load dag
  let (journal, result) := (← get).journal.eventsOf dag
  modify fun e => { e with journal }
  stored result

/-- Brings the interrupted tasks of one running dag back and starts its drive loop. -/
def resume (d : Dag) : EngineM σ Unit := do
  d.interrupted.forM fun t => do
    let (status, line) := (← get).registry.recovered t
    let time ← now
    let store ← stored ((← get).store.saveTaskStatus d.id t.id status [⟨time, line⟩] time)
    modify fun e => { e with store }
  record d.id (.dagRecovered d.stage)
  spawn d.id

/-- Resumes every dag that was running when the process stopped, and counts them. -/
def recover : EngineM σ Nat := do
  let running := (← list).filter (·.isRunning)
  running.forM resume
  return running.length

def shutdown : EngineM σ Unit := modify fun e => { e with active := [], loops := [] }

end Engine

end Stagewise
