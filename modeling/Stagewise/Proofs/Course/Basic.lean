import Stagewise.Engine.Recovery
import Stagewise.Engine.Report
import Stagewise.Proofs.Dag.Building
import Stagewise.Store.Basic
/-!
# The courses of dags

What can happen to a dag from its submission on, one thing at a time: its drive loop takes a step, a
request goes out, the reports of a stage are folded in, an operator gives a command, the process
stops, recovery takes the dag up again. These may follow one another in any order in which the state
of the loop allows them. A course remembers every record that was stored and every request that was
sent, the latest first.

A command that is refused, and a write that is lost or fails, change nothing and are no steps here;
what a loop does after a lost write is `reread`, and after a failed one `halt`.
-/

namespace Stagewise

/-- The requests of a batch, task by task and agent by agent. -/
def Batch.requests (b : Batch) (dag : DagId) (action : Action) : List (Agent × DispatchRequest) :=
  b.flatMap fun (t, targets) => targets.map fun a => (a, { dagId := dag, task := t, action })

/-- Who stores a record. -/
inductive Author where
  | submission
  | step
  | barrier (action : Action) (reports : List Report)
  | operator (command : Operator)
  | recovery (task : TaskId)

/-- What happens to a dag: a record of it is stored, or one of its tasks is sent to an agent. -/
inductive Occurrence where
  | wrote (author : Author) (record : Dag)
  | sent (agent : Agent) (request : DispatchRequest)

/-- A stage that is sent out: the requests that have gone out, and those that have not yet. -/
structure Barrier where
  action : Action
  stage : Nat
  sent : List (Agent × DispatchRequest)
  rest : List (Agent × DispatchRequest)

/-- How the drive loop of a dag stands. There is none, recovery has still to see to some tasks
before there is one, it is about to take a step, or it has sent a stage out. -/
inductive Standing where
  | idle
  | recovering (left : List Task)
  | ready
  | barrier (b : Barrier)

/-- A loop is started unless there is one. -/
def Standing.wake : Standing → Standing
  | .idle => .ready
  | s => s

/-- A dag, its drive loop, and what has happened so far, the latest first. -/
structure Course where
  record : Dag
  loop : Standing
  history : List Occurrence

/-- Every request has its report. -/
def Barrier.Answered (b : Barrier) (reports : List Report) : Prop :=
  b.rest = [] ∧ reports.map (fun r => (r.task, r.agent)) = b.sent.map fun (a, q) => (q.task.id, a)

namespace Course

/-- The course of a dag that has just been submitted. -/
def start (d : Dag) : Course := ⟨d, .ready, [.wrote .submission d]⟩

/-- A record is stored. -/
def write (s : Course) (author : Author) (record : Dag) (now : Timestamp) (loop : Standing) :
    Course :=
  ⟨record.raised now, loop, .wrote author (record.raised now) :: s.history⟩

/-- How the loop stands after a step that left this record. -/
def standingAfter (record : Dag) : Option Batch → Standing
  | some batch =>
    .barrier ⟨record.direction, record.stage, [], batch.requests record.id record.direction⟩
  | none => .ready

/-- The drive loop makes a move. -/
def proceed (s : Course) (move : Move) (now : Timestamp) : Course :=
  match move.write with
  | some record => s.write .step record now (standingAfter (record.raised now) move.batch)
  | none => { s with loop := standingAfter s.record move.batch }

/-- One thing that can happen to a dag. -/
inductive Step : Course → Course → Prop where
  /-- The drive loop takes a step. -/
  | proceed {s : Course} {move : Move} (now later : Timestamp) (ready : s.loop = .ready)
      (running : s.record.isRunning) (step : s.record.step now = .ok move) :
      Step s (s.proceed move later)
  /-- The next request of a stage goes out. -/
  | send {s : Course} {b : Barrier} {agent : Agent} {request : DispatchRequest}
      {rest : List (Agent × DispatchRequest)} (sending : s.loop = .barrier b)
      (next : b.rest = (agent, request) :: rest) : Step s { s with
        loop := .barrier { b with sent := b.sent ++ [(agent, request)], rest },
        history := .sent agent request :: s.history }
  /-- The reports of a stage are folded in, because the dag still runs at that stage. -/
  | fold {s : Course} {b : Barrier} {reports : List Report} (now later : Timestamp)
      (waiting : s.loop = .barrier b) (answered : b.Answered reports)
      (running : s.record.isRunning) (stage : s.record.stage = b.stage) :
      Step s
        (s.write (.barrier b.action reports) (s.record.settle reports b.action now).dag
          later .ready)
  /-- The reports of a stage are dropped, and the loop reads the record again. -/
  | reread {s : Course} {b : Barrier} (waiting : s.loop = .barrier b) (out : b.rest = []) :
      Step s { s with loop := .ready }
  /-- An operator command is accepted. All but a cancellation start a loop; one that is at work goes
  on. -/
  | command {s : Course} {operator : Operator} {record : Dag} {lines : LogLines}
      (now later : Timestamp) (accepted : s.record.command operator now = .ok (record, lines)) :
      Step s
        (s.write (.operator operator) record later
          (if operator = .cancel then s.loop else s.loop.wake))
  /-- The loop ends, or the process stops, whatever it was about. -/
  | halt {s : Course} : Step s { s with loop := .idle }
  /-- Recovery finds the dag running, without a loop, and notes its interrupted tasks. -/
  | find {s : Course} (idle : s.loop = .idle) (running : s.record.isRunning) :
      Step s { s with loop := .recovering s.record.interrupted }
  /-- Recovery sees to the next interrupted task. -/
  | recover {s : Course} {t : Task} {left : List Task} (registry : Registry) (now : Timestamp)
      (recovering : s.loop = .recovering (t :: left)) :
      Step s
        (s.write (.recovery t.id)
          (s.record.modifyTask t.id (Store.withStatus (registry.recovered t).1 now)) now
        (.recovering left))
  /-- Recovery has seen to every interrupted task and starts a loop. -/
  | resume {s : Course} (recovering : s.loop = .recovering []) : Step s { s with loop := .ready }

/-- The courses that a dag can have had. They begin when a specification is accepted, with fresh
identifiers. -/
inductive Lived : Course → Prop where
  | submitted {registry : Registry} {ids : FreshIds} {spec : DagSpec} {now : Timestamp} {d : Dag}
      (fresh : ids.DistinctFor spec) (built : spec.build registry ids now = .ok d) : Lived (start d)
  | next {s s' : Course} (lived : Lived s) (step : Step s s') : Lived s'

@[simp] theorem write_record (s : Course) (author : Author) (record : Dag) (now : Timestamp)
    (loop : Standing) :
    (s.write author record now loop).record = record.raised now := rfl

@[simp] theorem write_history (s : Course) (author : Author) (record : Dag) (now : Timestamp)
    (loop : Standing) :
    (s.write author record now loop).history = .wrote author (record.raised now) :: s.history := rfl

end Course

theorem Batch.mem_requests_iff {b : Batch} {dag : DagId} {action : Action} {a : Agent}
    {q : DispatchRequest} :
    (a, q) ∈ b.requests dag action ↔
      ∃ targets, (q.task, targets) ∈ b ∧ a ∈ targets ∧ q.dagId = dag ∧ q.action = action := by
  simp only [Batch.requests, List.mem_flatMap, List.mem_map, Prod.exists, Prod.mk.injEq]
  constructor
  · rintro ⟨t, targets, hb, a, ha, rfl, rfl⟩
    exact ⟨targets, hb, ha, rfl, rfl⟩
  · rintro ⟨targets, hb, ha, rfl, rfl⟩
    exact ⟨q.task, targets, hb, a, ha, rfl, rfl⟩

theorem Barrier.Answered.reported_iff {b : Barrier} {reports : List Report}
    (h : b.Answered reports) {id : TaskId} :
    (∃ r ∈ reports, r.task = id) ↔ ∃ p ∈ b.sent ++ b.rest, p.2.task.id = id := by
  obtain ⟨hrest, hall⟩ := h
  have hids : reports.map (·.task) = b.sent.map (·.2.task.id) := by
    have hfirst := congrArg (List.map Prod.fst) hall
    rwa [List.map_map, List.map_map] at hfirst
  rw [hrest, List.append_nil]
  constructor
  · rintro ⟨r, hr, rfl⟩
    have hmem : r.task ∈ b.sent.map (·.2.task.id) := hids ▸ List.mem_map_of_mem hr
    exact List.mem_map.mp hmem
  · rintro ⟨p, hp, rfl⟩
    have hmem : p.2.task.id ∈ reports.map (·.task) := hids ▸ List.mem_map_of_mem hp
    exact List.mem_map.mp hmem

end Stagewise
