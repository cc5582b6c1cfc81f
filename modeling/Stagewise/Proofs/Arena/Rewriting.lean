import Stagewise.Client.Watch
import Stagewise.Proofs.Arena.Order
import Stagewise.Proofs.Dag.Acceptance
/-!
# One record and the next

Whoever writes a record makes it of the one before: the version is the next one, the plan of the dag
is the same, and the stage is the same or that of a neighbour. A stage is left forward when its work
is done, and backward when nothing in it is left to compensate.
-/

namespace Stagewise

/-- What is planned for a node and never changes: its name, its participants, and its tasks. -/
def Node.plan (n : Node) : String × List Agent × List (TaskId × String × String × Capabilities) :=
  (n.name, n.participants, n.tasks.map Task.identity)

namespace Dag

/-- The dags are of the same plan, and the one is made of the other's version. -/
structure SamePlan (d d' : Dag) : Prop where
  id : d'.id = d.id
  name : d'.name = d.name
  kind : d'.kind = d.kind
  createdAt : d'.createdAt = d.createdAt
  maxStage : d'.maxStage = d.maxStage
  nodes : d'.nodes.map Node.plan = d.nodes.map Node.plan
  version : d'.version = d.version

/-- How the stage of a dag may be moved. -/
inductive StageMoved (d d' : Dag) : Prop where
  | stays (stage : d'.stage = d.stage)
  | onward {n : Node} (stage : d'.stage = d.stage + 1) (operator : d'.operator = d.operator)
      (forward : d.operator ≠ .rollback) (node : d.currentNode? = some n)
      (kept : d'.nodes = d.nodes)
      (done : ∀ t ∈ n.tasks, t.status = .succeeded ∨ t.status = .skipped)
  | back {n : Node} (stage : d'.stage + 1 = d.stage) (operator : d'.operator = d.operator)
      (backward : d.operator = .rollback) (node : d.currentNode? = some n)
      (kept : d'.nodes = d.nodes)
      (idle : ∀ t ∈ n.tasks,
        t.status ≠ .running ∧ t.status ≠ .succeeded ∧ t.status ≠ .failed)

/-- The second record is written over the first. -/
structure Rewritten (d d' : Dag) : Prop where
  version : d'.version = d.version + 1
  id : d'.id = d.id
  name : d'.name = d.name
  kind : d'.kind = d.kind
  createdAt : d'.createdAt = d.createdAt
  maxStage : d'.maxStage = d.maxStage
  nodes : d'.nodes.map Node.plan = d.nodes.map Node.plan
  stage : d.StageMoved d'

variable {d d' : Dag} {now later : Timestamp}

theorem SamePlan.rewritten (h : d.SamePlan d') (stage : d.StageMoved d') (later : Timestamp) :
    d.Rewritten (d'.raised later) where
  version := congrArg (· + 1) h.version
  id := h.id
  name := h.name
  kind := h.kind
  createdAt := h.createdAt
  maxStage := h.maxStage
  nodes := h.nodes
  stage := by
    cases stage with
    | stays stage => exact .stays stage
    | onward stage operator forward node kept done =>
      exact .onward stage operator forward node kept done
    | back stage operator backward node kept idle =>
      exact .back stage operator backward node kept idle

/-! ## The plan -/

theorem SamePlan.refl (d : Dag) : d.SamePlan d := ⟨rfl, rfl, rfl, rfl, rfl, rfl, rfl⟩

theorem SamePlan.withStage (h : d.SamePlan d') (stage : Nat) : d.SamePlan { d' with stage } :=
  ⟨h.id, h.name, h.kind, h.createdAt, h.maxStage, h.nodes, h.version⟩

theorem SamePlan.withStatus (h : d.SamePlan d') (status : DagStatus) :
    d.SamePlan { d' with status } :=
  ⟨h.id, h.name, h.kind, h.createdAt, h.maxStage, h.nodes, h.version⟩

theorem SamePlan.withOperator (h : d.SamePlan d') (operator : Operator) :
    d.SamePlan { d' with operator } :=
  ⟨h.id, h.name, h.kind, h.createdAt, h.maxStage, h.nodes, h.version⟩

theorem samePlan_mapAt (d : Dag) {g : Nat → Task → Task}
    (hg : ∀ i t, (g i t).identity = t.identity) : d.SamePlan (d.mapAt g) where
  id := rfl
  name := rfl
  kind := rfl
  createdAt := rfl
  maxStage := rfl
  nodes := by
    refine List.ext_getElem? fun i => ?_
    rw [mapAt, List.getElem?_map, List.getElem?_mapIdx, List.getElem?_map, Option.map_map]
    refine congrArg (Option.map · d.nodes[i]?) (funext fun n => ?_)
    have hids : (n.tasks.map (g i)).map Task.identity = n.tasks.map Task.identity := by
      rw [List.map_map]
      exact List.map_congr_left fun t _ => hg i t
    simp only [Function.comp_apply, Node.plan, hids]
  version := rfl

theorem samePlan_mapTasks (d : Dag) {f : Task → Task} (hf : ∀ t, (f t).identity = t.identity) :
    d.SamePlan (d.mapTasks f) := by
  rw [mapTasks_eq_mapAt]
  exact d.samePlan_mapAt fun _ => hf

theorem samePlan_launched {n : Node} (hn : d.currentNode? = some n) (now : Timestamp) :
    d.SamePlan (d.modifyCurrent fun _ => launched n now) := by
  rw [launched_eq_mapAt hn]
  refine d.samePlan_mapAt fun i t => ?_
  split
  · exact markRunning_identity now t
  · rfl

theorem samePlan_modifyTasks (h : d.Distinct) {n : Node} (hn : d.currentNode? = some n)
    {f : Task → Task} (hf : ∀ t, (f t).identity = t.identity) :
    d.SamePlan (d.modifyTasks (n.failedTasks.map (·.id)) f) := by
  rw [modifyTasks_failedTasks h hn fun t => Task.id_eq_of_identity (hf t)]
  refine d.samePlan_mapTasks fun t => ?_
  split
  · exact hf t
  · rfl

/-! ## The writers, one by one -/

theorem rewritten_step {move : Move} {record : Dag} (hstep : d.step now = .ok move)
    (hwrite : move.write = some record) (later : Timestamp) :
    d.Rewritten (record.raised later) := by
  have hself := SamePlan.refl d
  rw [step] at hstep
  cases hdirection : d.direction with
  | execute =>
    simp only [hdirection] at hstep
    obtain ⟨n, hcurrent, -⟩ := bind_eq_ok hstep
    have hn := current_eq_ok_iff.mp hcurrent
    have hlaunched := samePlan_launched hn now
    cases forward_cases hn hstep with
    | advance done more =>
      cases hwrite
      have hforward := direction_eq_execute_iff.mp hdirection
      have hdone : ∀ t ∈ n.tasks, t.status = .succeeded ∨ t.status = .skipped :=
        fun t ht => TaskStatus.isDone_iff.mp (done t ht)
      exact (hself.withStage _).rewritten (.onward rfl rfl hforward hn rfl hdone) later
    | finish done last =>
      cases hwrite
      exact (hself.withStatus .succeeded).rewritten (.stays rfl) later
    | park failed =>
      cases hwrite
      exact (hself.withStatus .failed).rewritten (.stays rfl) later
    | stuck sound left idle message =>
      cases hwrite
      exact (hlaunched.withStatus .failed).rewritten (.stays rfl) later
    | launch sound left busy =>
      cases hwrite
      exact hlaunched.rewritten (.stays rfl) later
  | rollback =>
    simp only [hdirection] at hstep
    obtain ⟨n, hcurrent, -⟩ := bind_eq_ok hstep
    have hn := current_eq_ok_iff.mp hcurrent
    cases unwind_cases hn hstep with
    | compensate busy => cases hwrite
    | stepBack idle more =>
      cases hwrite
      have hbackward := direction_eq_rollback_iff.mp hdirection
      have hstage : d.stage - 1 + 1 = d.stage := by omega
      refine (hself.withStage _).rewritten (.back hstage rfl hbackward hn rfl fun t ht => ?_) later
      have hidle : ¬ t.status.isExecuted := unwindBatch_eq_nil_iff.mp idle t ht
      rw [TaskStatus.isExecuted_iff] at hidle
      simpa only [not_or] using hidle
    | finish idle last =>
      cases hwrite
      exact (hself.withStatus .failed).rewritten (.stays rfl) later

theorem rewritten_settle (h : d.Distinct) (reports : List Report) (action : Action)
    (now later : Timestamp) :
    d.Rewritten ((d.settle reports action now).dag.raised later) := by
  have hreported : d.SamePlan (d.reported reports action now) :=
    d.samePlan_mapTasks fun t => by split <;> simp
  cases action with
  | execute =>
    rw [settle_execute h]
    exact hreported.rewritten (.stays rfl) later
  | rollback =>
    rw [settle_rollback h]
    split
    · exact (hreported.withStatus .failed).rewritten (.stays rfl) later
    · exact hreported.rewritten (.stays rfl) later

theorem Commanded.rewritten {operator : Operator} {record : Dag} {lines : LogLines}
    (hmade : d.Commanded now operator record lines) (h : d.Distinct) (later : Timestamp) :
    d.Rewritten (record.raised later) := by
  cases hmade with
  | retry failed forward node nonempty permitted =>
    have hplan := samePlan_modifyTasks h node (f := again) fun _ => rfl
    exact ((hplan.withStatus .running).withOperator .retry).rewritten
      (.stays (d.stage_modifyTasks ..)) later
  | pass failed forward node nonempty permitted =>
    have hplan := samePlan_modifyTasks h node
      (f := fun t => { t with status := .succeeded, finishedAt := some now }) fun _ => rfl
    exact ((hplan.withStatus .running).withOperator .pass).rewritten
      (.stays (d.stage_modifyTasks ..)) later
  | rollback failed reached permitted =>
    exact (((SamePlan.refl d).withStatus .running).withOperator .rollback).rewritten (.stays rfl)
      later
  | cancel unfinished permitted =>
    have hplan := d.samePlan_mapTasks (stopped_identity now)
    exact ((hplan.withStatus .cancelled).withOperator .cancel).rewritten (.stays rfl) later

theorem rewritten_modifyTask (h : d.Distinct) (id : TaskId) {f : Task → Task}
    (hf : ∀ t, (f t).identity = t.identity) (later : Timestamp) :
    d.Rewritten ((d.modifyTask id f).raised later) := by
  rw [modifyTask_eq_mapTasks h]
  have hplan : d.SamePlan (d.mapTasks fun t => if t.id = id then f t else t) :=
    d.samePlan_mapTasks fun t => by split <;> simp [hf]
  exact hplan.rewritten (.stays rfl) later

/-! ## The stage is always that of a node -/

/-- Wherever the stage of the dag is used to find a node, it finds one. -/
structure Navigable (d : Dag) : Prop where
  node : ∃ n, d.currentNode? = some n
  reached : ∃ nodes, d.reached? = some nodes
  failedTask : ∃ found, d.failedTask? = some found
  rolledBack : ∃ answer, d.isRolledBack? = some answer
  verdict : ∃ verdict, d.verdict? = some verdict
  step : ∀ now, ∃ move, d.step now = .ok move
  command : ∀ operator now, d.command operator now ≠ .error .stageOutOfRange

theorem Shaped.staged (h : d.Shaped) : d.Staged := ⟨h.stage_pos, h.stage_le, h.maxStage_eq⟩

theorem Staged.failedTask (h : d.Staged) : ∃ found, d.failedTask? = some found := by
  rw [failedTask?, h.reached]
  exact ⟨_, rfl⟩

theorem Staged.rolledBack (h : d.Staged) : ∃ answer, d.isRolledBack? = some answer := by
  obtain ⟨found, hfound⟩ := h.failedTask
  rw [isRolledBack?, hfound]
  split <;> exact ⟨_, rfl⟩

theorem Staged.verdict (h : d.Staged) : ∃ verdict, d.verdict? = some verdict := by
  obtain ⟨n, hn⟩ := h.currentNode
  obtain ⟨found, hfound⟩ := h.failedTask
  obtain ⟨answer, hanswer⟩ := h.rolledBack
  simp only [verdict?, hanswer, hfound, hn]
  cases d.status <;> cases answer <;> cases found <;> exact ⟨_, rfl⟩

theorem Shaped.navigable (h : d.Shaped) : d.Navigable where
  node := h.currentNode
  reached := ⟨_, h.staged.reached⟩
  failedTask := h.staged.failedTask
  rolledBack := h.staged.rolledBack
  verdict := h.staged.verdict
  step := by
    intro now
    obtain ⟨n, hn⟩ := h.currentNode
    exact exists_step hn now
  command := by
    intro operator now hcommand
    obtain ⟨err, herr⟩ := h.staged.command_error hcommand
    cases herr

end Dag

end Stagewise
