import Stagewise.Proofs.Dag.Forward
import Stagewise.Proofs.Engine.Command
import Stagewise.Proofs.Store.Accepted
/-!
# What a node lets a drive loop do

The status of a node does not depend on the order of its tasks, and each status says what they are
like. A drive loop that finds the node at work neither done nor failed starts the tasks that wait or
run, all of them and no others, and calls each at its targets. Only where a task was rolled back can
it happen that there is none, and then the dag is given up.
-/

namespace Stagewise

/-- The task waits or runs. -/
def Task.Unended (t : Task) : Prop := t.status = .pending ∨ t.status = .running

instance : DecidablePred Task.Unended := fun _ => inferInstanceAs (Decidable (_ ∨ _))

/-- A task that is sent out: it runs from now on, and nothing is reported of it. -/
def Task.started (now : Timestamp) (t : Task) : Task :=
  { t with status := .running, startedAt := some now, finishedAt := none, agentResults := .empty }

namespace Node

variable {n : Node}

/-- The tasks that wait or run, in their order. -/
def unended (n : Node) : List Task := n.tasks.filter fun t => t.Unended

/-- These tasks as they are sent out, each with its targets. -/
def outgoing (n : Node) (now : Timestamp) : Batch :=
  n.unended.map fun t => (t.started now, n.targets t)

/-- Each of these tasks with each of its targets. -/
def addressed (n : Node) : List (TaskId × Agent) :=
  n.unended.flatMap fun t => (n.targets t).map fun a => (t.id, a)

theorem mem_unended_iff {t : Task} : t ∈ n.unended ↔ t ∈ n.tasks ∧ t.Unended := by simp [unended]

/-- A node that is neither done nor failed has tasks that wait or run, or one that was rolled
back. -/
theorem exists_rolledBack (undone : ¬ n.status.isDone) (sound : n.status ≠ .failed)
    (idle : n.unended = []) : ∃ t ∈ n.tasks, t.status = .rolledBack := by
  obtain ⟨t, ht, hopen⟩ : ∃ t ∈ n.tasks, ¬ t.status.isDone := by
    by_contra hnone
    apply undone
    apply status_isDone_iff.mpr
    simpa using hnone
  have hfailed : t.status ≠ .failed := fun hs => sound (status_eq_failed_iff.mpr ⟨t, ht, hs⟩)
  have hended : ¬ t.Unended := fun hu => by simpa [idle] using mem_unended_iff.mpr ⟨ht, hu⟩
  refine ⟨t, ht, ?_⟩
  cases hs : t.status with
  | rolledBack => rfl
  | pending => exact absurd (.inl hs) hended
  | running => exact absurd (.inr hs) hended
  | failed => exact absurd hs hfailed
  | succeeded => simp [hs, TaskStatus.isDone] at hopen
  | skipped => simp [hs, TaskStatus.isDone] at hopen

theorem map_requests_outgoing (n : Node) (now : Timestamp) (dag : DagId) (action : Action) :
    ((n.outgoing now).requests dag action).map (fun p => (p.2.task.id, p.1)) = n.addressed := by
  simp [Batch.requests, outgoing, addressed, List.flatMap_map, List.map_flatMap,
    Function.comp_def, Task.started]

end Node

namespace Dag

variable {d : Dag} {n : Node} {now : Timestamp}

/-- The dag with the tasks of the node at work started that wait or run. -/
def started (d : Dag) (now : Timestamp) : Dag :=
  d.mapAt fun i t => if i + 1 = d.stage ∧ t.Unended then t.started now else t

/-- What a step forward stores for a node that is neither done nor failed. -/
def launching (d : Dag) (n : Node) (now : Timestamp) : Dag :=
  { d.started now with status := if n.unended = [] then .failed else d.status }

theorem markRunning_eq (now : Timestamp) (t : Task) :
    markRunning now t = if t.Unended then t.started now else t := by
  rw [markRunning]
  cases hs : t.status <;> simp [TaskStatus.isTerminal, Task.Unended, hs, Task.started]

theorem launchBatch_eq (n : Node) (now : Timestamp) : launchBatch n now = n.outgoing now := by
  have hruns (t : Task) : ((markRunning now t).status == .running) = decide t.Unended := by
    rw [markRunning_eq]
    split
    · simp [Task.started, *]
    · simp_all [Task.Unended]
  -- Marking a task decides whether it is sent, so the filter moves in front of it.
  rw [launchBatch, batchOf, launched, List.filter_map, List.map_map, Node.outgoing, Node.unended]
  simp only [Function.comp_def, hruns]
  refine List.map_congr_left fun t ht => ?_
  rw [markRunning_eq, if_pos (by simpa using (List.mem_filter.mp ht).2)]
  rfl

theorem launched_eq_started (hn : d.currentNode? = some n) (now : Timestamp) :
    (d.modifyCurrent fun _ => launched n now) = d.started now := by
  rw [launched_eq_mapAt hn, started]
  congr 1
  funext i t
  by_cases hi : i + 1 = d.stage <;> simp [hi, markRunning_eq]

/-- From a node that is neither done nor failed a step forward starts and sends out what waits or
runs. -/
theorem forward_launches (hn : d.currentNode? = some n) (undone : ¬ n.status.isDone)
    (sound : n.status ≠ .failed) (now : Timestamp) :
    ∃ move, d.forward now = .ok move ∧ move.write = some (d.launching n now) ∧
      move.batch = if n.unended = [] then none else some (n.outgoing now) := by
  obtain ⟨move, hmove⟩ := exists_forward hn now
  refine ⟨move, hmove, ?_⟩
  cases forward_cases hn hmove with
  | advance done => exact absurd (Node.status_isDone_iff.mpr done) undone
  | finish done => exact absurd (Node.status_isDone_iff.mpr done) undone
  | park failed => exact absurd (Node.status_eq_failed_iff.mpr failed) sound
  | stuck _ _ idle =>
    have hnone : n.unended = [] := by simpa [launchBatch_eq, Node.outgoing] using idle
    rw [launched_eq_started hn, launching, if_pos hnone, if_pos hnone]
    exact ⟨rfl, rfl⟩
  | launch _ _ busy =>
    have hsome : n.unended ≠ [] := by simpa [launchBatch_eq, Node.outgoing] using busy
    rw [launched_eq_started hn, launchBatch_eq, launching, if_neg hsome, if_neg hsome]
    exact ⟨rfl, rfl⟩

end Dag

namespace Engine

variable {σ : Type} {env : Surroundings σ} {e : Engine σ} {d : Dag} {n : Node}

/-- How a drive loop goes on: it waits for every task that waits or runs at each of its targets,
unless there is none. -/
inductive Calling (d : Dag) (n : Node) : StepResult → Prop where
  | idle (ended : n.unended = []) : Calling d n .goesOn
  | busy {calls : List Call} (left : n.unended ≠ [])
      (called : calls.map (fun c => (c.task, c.agent)) = n.addressed) :
      Calling d n (.waits .execute d.stage calls)

/-- The step of a drive loop stores what a step forward makes of the dag and calls the tasks that
are sent out. If the write fails, everything stays as it is. -/
def Launches (env : Surroundings σ) (e : Engine σ) (d : Dag) (n : Node) : Prop :=
  ∃ answer e', perform env (takeStep d.id) e = (answer, e') ∧
    (e.outages.swap (e.swaps + 1) = .works → ∃ now later result, answer = .ok result ∧
      e'.store.dags = (e.store.save ((d.launching n now).raised later)).dags ∧
      Calling d n result) ∧
    (e.outages.swap (e.swaps + 1) ≠ .works →
      (∃ err, answer = .error (.error err)) ∧ e.Untouched e')

theorem map_calls {requests : List (Agent × DispatchRequest)} {calls : List Call}
    (h : List.Forall₂ Carries requests calls) :
    calls.map (fun c => (c.task, c.agent)) = requests.map fun p => (p.2.task.id, p.1) := by
  induction h with
  | nil => rfl
  | cons hcarries _ ih => rw [List.map_cons, List.map_cons, ih, hcarries.task, hcarries.agent]

/-- Once a step forward is stored, its batch is called, if there is one. -/
theorem afterMove_launches (env : Surroundings σ) (e : Engine σ) (events : List EventType)
    (forward : d.direction = .execute) (now : Timestamp) :
    ∃ result e', perform env (afterMove d.id d events
        (if n.unended = [] then none else some (n.outgoing now))) e = (.ok result, e') ∧
      e'.store.dags = e.store.dags ∧ Calling d n result := by
  obtain ⟨_, e₁, hrecorded, hdags, -⟩ := quiet_recordAll d.id events env e
  by_cases hidle : n.unended = []
  · refine ⟨.goesOn, e₁, ?_, hdags, .idle hidle⟩
    rw [if_pos hidle, afterMove, perform_bind, hrecorded]
    rfl
  · obtain ⟨calls, e₂, hsent, hdags', hcarried⟩ :=
      quiet_sendOut d.id (n.outgoing now) .execute env e₁
    refine ⟨.waits .execute d.stage calls, e₂, ?_, hdags'.trans hdags, .busy hidle ?_⟩
    · rw [if_neg hidle, afterMove, perform_bind, hrecorded]
      simp only [perform_bind, forward, hsent, perform_pure]
    · exact (map_calls hcarried).trans (n.map_requests_outgoing now d.id .execute)

/-- The step of a dag that runs is its move: the record is written, and what follows on it. -/
theorem perform_takeStep (env : Surroundings σ) (stored : e.store.load? d.id = .ok (some d))
    (running : d.isRunning) {move : Move} {record : Dag} (step : d.step e.clock.now = .ok move)
    (write : move.write = some record) :
    perform env (takeStep d.id) e
      = perform env (commit record >>= fun d' => afterMove d.id d' move.events move.batch)
        { e with clock := e.clock.tick } := by
  simp only [takeStep_eq, perform_bind, perform_load stored]
  rw [if_neg (by simp [running])]
  simp only [perform_bind, perform_now, step, checked, perform_pure, write]

theorem launches (env : Surroundings σ) (stored : e.store.load? d.id = .ok (some d))
    (running : d.isRunning) (forward : d.operator ≠ .rollback) (hn : d.currentNode? = some n)
    (undone : ¬ n.status.isDone) (sound : n.status ≠ .failed) : e.Launches env d n := by
  have hdirection : d.direction = .execute := by simp [Dag.direction, forward]
  obtain ⟨move, hmove, hwrite, hbatch⟩ := Dag.forward_launches hn undone sound e.clock.now
  have hstep : d.step e.clock.now = .ok move := by rw [Dag.step, hdirection, hmove]
  have htaken := perform_takeStep env stored running hstep hwrite
  by_cases hworks : e.outages.swap (e.swaps + 1) = .works
  · have hid : (d.launching n e.clock.now).id = d.id := rfl
    have hcommit :=
      commit_works env (e := { e with clock := e.clock.tick }) stored hid rfl hworks
    -- The record that is written has the identifier, the direction and the stage that were read.
    obtain ⟨result, e', hafter, hdags, hcalling⟩ :=
      afterMove_launches (d := (d.launching n e.clock.now).raised e.clock.tick.now) env
        (written { e with clock := e.clock.tick }
          ((d.launching n e.clock.now).raised e.clock.tick.now))
        move.events hdirection e.clock.now
    refine ⟨.ok result, e', ?_, fun _ => ⟨e.clock.now, _, result, rfl, hdags, ?_⟩,
      fun hfails => absurd hworks hfails⟩
    · rw [htaken, perform_bind, hcommit, hbatch]
      exact hafter
    · cases hcalling with
      | idle ended => exact .idle ended
      | busy left called => exact .busy left called
  · obtain ⟨err, e', hcommit, hsame⟩ :=
      commit_fails (e := { e with clock := e.clock.tick }) env (d.launching n e.clock.now) hworks
    refine ⟨.error (.error err), e', ?_, fun hw => absurd hw hworks,
      fun _ => ⟨⟨err, rfl⟩, hsame.store, hsame.journal, hsame.active, hsame.loops⟩⟩
    rw [htaken, perform_bind, hcommit]

end Engine

namespace Node

/-- The status of a node is the same in any order of its tasks, and says which statuses they have.
From a node that is neither done nor failed, a step forward starts and sends out the tasks that wait
or run and no others, and a drive loop calls them. There is none only if a task was rolled back. -/
theorem status_decides_launch {n : Node} (inhabited : n.tasks ≠ []) :
    (∀ m : Node, m.tasks.Perm n.tasks → m.status = n.status) ∧
    (n.status.isDone ↔ ∀ t ∈ n.tasks, t.status = .succeeded ∨ t.status = .skipped) ∧
    (n.status = .failed ↔ ∃ t ∈ n.tasks, t.status = .failed) ∧
    (n.status = .pending ↔ ∀ t ∈ n.tasks, t.status = .pending) ∧
    (n.status = .rolledBack ↔ (∃ t ∈ n.tasks, t.status = .rolledBack) ∧
      ∀ t ∈ n.tasks, t.status = .rolledBack ∨ t.status = .pending ∨ t.status = .skipped) ∧
    (¬ n.status.isDone → n.status ≠ .failed →
      (∀ d : Dag, d.currentNode? = some n →
        (∀ now, ∃ move, d.forward now = .ok move ∧ move.write = some (d.launching n now) ∧
          move.batch = if n.unended = [] then none else some (n.outgoing now)) ∧
        ∀ {σ : Type} (env : Surroundings σ) (e : Engine σ), e.store.load? d.id = .ok (some d) →
          d.isRunning → d.operator ≠ .rollback → e.Launches env d n) ∧
      (n.unended = [] → ∃ t ∈ n.tasks, t.status = .rolledBack)) := by
  refine ⟨fun m h => status_of_perm h, ?done, status_eq_failed_iff,
    status_eq_pending_iff inhabited, status_eq_rolledBack_iff, fun undone sound => ⟨?launch, ?idle⟩⟩
  case done =>
    rw [status_isDone_iff]
    simp only [TaskStatus.isDone_iff]
  case launch =>
    intro d hn
    refine ⟨fun now => Dag.forward_launches hn undone sound now, ?_⟩
    intro σ env e stored running forward
    exact Engine.launches env stored running forward hn undone sound
  case idle => exact exists_rolledBack undone sound

end Node

namespace Sample

/-! ## A node with tasks of several statuses -/

def scatteredTask (id : BitVec 128) (status : TaskStatus) : Task :=
  { finishedTask with id := ⟨⟨id⟩⟩, status }

def scatteredNode : Node :=
  ⟨"first", [⟨"10.0.0.1", 80⟩], [scatteredTask 1 .rolledBack, scatteredTask 2 .running,
    scatteredTask 3 .succeeded, scatteredTask 4 .pending]⟩

def scatteredDag : Dag :=
  { finishedDag with
    nodes := [scatteredNode], stage := 1, maxStage := 1, status := .running, operator := .run
    version := 0 }

theorem survives_scatteredDag : Document.Survives scatteredDag := by
  have hvalid : scatteredDag.Valid := { valid_finishedDag with
    nodes := by
      intro n hn
      obtain rfl := List.mem_singleton.1 hn
      refine ⟨fun t ht => ?_⟩
      simp only [scatteredNode, List.mem_cons, List.not_mem_nil, or_false] at ht
      rcases ht with rfl | rfl | rfl | rfl
      all_goals exact { valid_finishedTask with }
    stage := by decide
    maxStage := by decide
    version := by decide }
  exact hvalid.faithful.survives (by decide)

def scatteredEngine : Engine Unit :=
  { Engine.new registry dawn () with store := Store.empty.save scatteredDag }

end Sample

namespace Node

/-- Two of four tasks are called, each at two agents. -/
theorem status_decides_launch_scattered :
    Sample.scatteredNode.tasks ≠ [] ∧
      { Sample.scatteredNode with tasks := Sample.scatteredNode.tasks.reverse }.status
        = Sample.scatteredNode.status ∧
      ∃ calls e', Engine.perform Sample.surroundings (Engine.takeStep Sample.scatteredDag.id)
          Sample.scatteredEngine = (.ok (.waits .execute 1 calls), e') ∧
        calls.map (fun c => (c.task, c.agent))
          = [(⟨⟨2⟩⟩, ⟨"10.0.0.1", 80⟩), (⟨⟨2⟩⟩, ⟨"::1", 65535⟩), (⟨⟨4⟩⟩, ⟨"10.0.0.1", 80⟩),
            (⟨⟨4⟩⟩, ⟨"::1", 65535⟩)] := by
  have hinhabited : Sample.scatteredNode.tasks ≠ [] := List.cons_ne_nil _ _
  obtain ⟨hperm, -, -, -, -, hopen⟩ := status_decides_launch hinhabited
  have hbusy : Sample.scatteredNode.unended ≠ [] := by decide
  have hstored := (Store.readable_save Sample.survives_scatteredDag Store.empty).1
  obtain ⟨hlaunch, -⟩ := hopen (by decide) (by decide)
  obtain ⟨answer, e', htaken, hworks, -⟩ :=
    (hlaunch Sample.scatteredDag rfl).2 Sample.surroundings Sample.scatteredEngine hstored rfl
      (by decide)
  obtain ⟨now, later, result, rfl, -, hcalling⟩ := hworks rfl
  cases hcalling with
  | idle ended => exact absurd ended hbusy
  | busy left called =>
    exact ⟨hinhabited, hperm _ (List.reverse_perm _), _, e', htaken, called⟩

end Node

end Stagewise
