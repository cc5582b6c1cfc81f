import Stagewise.Proofs.Course.Sound
/-!
# What becomes of a task

Between a record and the next one, more of a task may change than its status: its points in time,
what the agents have reported, its context. For every author it is said here what becomes of a task
as a whole. Some tasks an author has to touch, and all others it may leave as they are.
-/

namespace Stagewise

/-- The author does not store the task as it was. -/
def Author.Touches (t : Task) : Author → Prop
  | .barrier _ reports => ∃ r ∈ reports, r.task = t.id
  | .operator .cancel => ¬ t.status.isTerminal
  | .recovery id => t.id = id
  | _ => False

/-- What becomes of a task when the author stores a record. -/
inductive Handled : Author → Task → Task → Prop where
  | kept {author : Author} {t : Task} (spared : ¬ author.Touches t) : Handled author t t
  | launched {t : Task} (now : Timestamp) (unended : ¬ t.status.isTerminal) : Handled .step t
      { t with
        status := .running, startedAt := some now, finishedAt := none, agentResults := .empty }
  | folded {action : Action} {reports : List Report} {t : Task} (now : Timestamp)
      (due : action.due t.status) (reported : ∃ r ∈ reports, r.task = t.id) :
      Handled (.barrier action reports) t (t.folded reports action now)
  | retried {t : Task} (failed : t.status = .failed) :
      Handled (.operator .retry) t (Dag.again t)
  | passed {t : Task} (now : Timestamp) (failed : t.status = .failed) :
      Handled (.operator .pass) t { t with status := .succeeded, finishedAt := some now }
  | stopped {t : Task} (now : Timestamp) (running : t.status = .running) :
      Handled (.operator .cancel) t { t with status := .failed, finishedAt := some now }
  | skipped {t : Task} (now : Timestamp) (pending : t.status = .pending) :
      Handled (.operator .cancel) t { t with status := .skipped, finishedAt := some now }
  | recovered {t : Task} {status : TaskStatus} (now : Timestamp)
      (interrupted : t.status = .running ∨ t.status = .failed)
      (back : status = .pending ∨ status = .failed) :
      Handled (.recovery t.id) t (Store.withStatus status now t)

/-- The tasks of the second record are those of the first, as the author handles them. -/
def Dag.Handles (d : Dag) (author : Author) (d' : Dag) : Prop :=
  ∃ g : Nat → Task → Task, d'.nodes = (d.mapAt g).nodes ∧
    ∀ i t, d.TaskAt i t → Handled author t (g i t)

theorem Handled.identity {author : Author} {t t' : Task} (h : Handled author t t') :
    t'.identity = t.identity := by
  cases h with
  | folded => exact t.folded_identity ..
  | _ => rfl

namespace Dag

variable {d d' : Dag} {author : Author}

theorem mapAt_self (d : Dag) : d.mapAt (fun _ t => t) = d := by
  rw [← mapTasks_eq_mapAt, mapTasks_self]

theorem TaskAt.congr_nodes (hnodes : d'.nodes = d.nodes) {i : Nat} {t : Task} :
    d'.TaskAt i t ↔ d.TaskAt i t := by
  rw [TaskAt, TaskAt, hnodes]

theorem Handles.taskBefore (h : d.Handles author d') {i : Nat} {t' : Task}
    (ht' : d'.TaskAt i t') : ∃ t, d.TaskAt i t ∧ Handled author t t' := by
  obtain ⟨g, hnodes, hg⟩ := h
  obtain ⟨t, ht, rfl⟩ := taskAt_mapAt.mp ((TaskAt.congr_nodes hnodes).mp ht')
  exact ⟨t, ht, hg i t ht⟩

theorem Handles.raised (h : d.Handles author d') (now : Timestamp) :
    d.Handles author (d'.raised now) := h

theorem Handles.of_nodes_eq (hnodes : d'.nodes = d.nodes) (spared : ∀ t, ¬ author.Touches t) :
    d.Handles author d' :=
  ⟨fun _ t => t, by rw [hnodes, mapAt_self], fun _ t _ => .kept (spared t)⟩

/-! ## The authors, one by one -/

theorem handles_launched {n : Node} (hn : d.currentNode? = some n) (now : Timestamp) :
    d.Handles .step (d.modifyCurrent fun _ => launched n now) := by
  rw [launched_eq_mapAt hn]
  refine ⟨_, rfl, fun i t ht => ?_⟩
  by_cases hi : i + 1 = d.stage
  · rw [if_pos hi, markRunning]
    split
    case isTrue => exact .kept not_false
    case isFalse unended => exact .launched now unended
  · rw [if_neg hi]
    exact .kept not_false

/-- A step changes tasks only when it sends them out. -/
theorem handles_step {n : Node} (hn : d.currentNode? = some n) {now : Timestamp} {move : Move}
    (hstep : d.step now = .ok move) {record : Dag} (hwrite : move.write = some record) :
    d.Handles .step record := by
  have hsame {d' : Dag} (hnodes : d'.nodes = d.nodes) : d.Handles .step d' :=
    .of_nodes_eq hnodes fun _ => not_false
  rw [step] at hstep
  cases hdirection : d.direction with
  | execute =>
    rw [hdirection] at hstep
    cases forward_cases hn hstep with
    | advance | finish | park =>
      obtain rfl := Option.some.inj hwrite
      exact hsame rfl
    | stuck | launch =>
      obtain rfl := Option.some.inj hwrite
      exact handles_launched hn now
  | rollback =>
    rw [hdirection] at hstep
    cases unwind_cases hn hstep with
    | compensate => cases hwrite
    | stepBack | finish =>
      obtain rfl := Option.some.inj hwrite
      exact hsame rfl

/-- Folding the reports of a running dag in changes no more than its tasks, and may end a rollback
as failed. -/
theorem settle_frame (hdistinct : d.Distinct) (running : d.status = .running)
    (reports : List Report) (action : Action) (now : Timestamp) :
    (d.settle reports action now).dag.nodes = (d.reported reports action now).nodes ∧
      (d.settle reports action now).dag.operator = d.operator ∧
        (d.settle reports action now).dag.stage = d.stage ∧
          (d.settle reports action now).dag.status ≠ .cancelled := by
  have hreported : (d.reported reports action now).status ≠ .cancelled := by
    simp [reported, mapTasks, running]
  cases action with
  | execute =>
    rw [settle_execute hdistinct]
    exact ⟨rfl, rfl, rfl, hreported⟩
  | rollback =>
    rw [settle_rollback hdistinct]
    split
    · exact ⟨rfl, rfl, rfl, by simp⟩
    · exact ⟨rfl, rfl, rfl, hreported⟩

theorem SentOut.handles_settle {b : Barrier} (h : d.SentOut b) (hdistinct : d.Distinct)
    {reports : List Report} (answered : b.Answered reports) (now : Timestamp) :
    d.Handles (.barrier b.action reports) (d.settle reports b.action now).dag := by
  obtain ⟨hnodes, -⟩ := settle_frame hdistinct h.running reports b.action now
  rw [reported, mapTasks_eq_mapAt] at hnodes
  refine ⟨_, hnodes, fun i t ht => ?_⟩
  split
  case isTrue hreported =>
    have hdue := ((h.mem_ids_iff hdistinct ht).mp (answered.reported_iff.mp hreported)).2
    exact .folded now hdue hreported
  case isFalse hspared => exact .kept hspared

theorem handled_stopped (now : Timestamp) (t : Task) :
    Handled (.operator .cancel) t (stopped now t) := by
  cases hs : t.status with
  | running => simpa only [stopped, hs] using Handled.stopped now hs
  | pending => simpa only [stopped, hs] using Handled.skipped now hs
  | _ =>
    simp only [stopped, hs]
    exact .kept fun unended => unended (by rw [hs]; rfl)

theorem Commanded.handles {operator : Operator} {record : Dag} {lines : LogLines} {now : Timestamp}
    (h : d.Commanded now operator record lines) (hdistinct : d.Distinct) :
    d.Handles (.operator operator) record := by
  cases h with
  | retry failed forward node =>
    rw [modifyTasks_failedTasks hdistinct node (f := again) fun _ => rfl, mapTasks_eq_mapAt]
    refine ⟨_, rfl, fun i t ht => ?_⟩
    split
    case isTrue hid => exact .retried ((mem_failedTasks_ids_iff hdistinct node ht).mp hid).2
    case isFalse => exact .kept not_false
  | pass failed forward node =>
    rw [modifyTasks_failedTasks hdistinct node
      (f := fun t => { t with status := .succeeded, finishedAt := some now })
      fun _ => rfl, mapTasks_eq_mapAt]
    refine ⟨_, rfl, fun i t ht => ?_⟩
    split
    case isTrue hid => exact .passed now ((mem_failedTasks_ids_iff hdistinct node ht).mp hid).2
    case isFalse => exact .kept not_false
  | rollback => exact .of_nodes_eq rfl fun _ => not_false
  | cancel =>
    rw [mapTasks_eq_mapAt]
    exact ⟨_, rfl, fun i t ht => handled_stopped now t⟩

theorem handles_recovered (hdistinct : d.Distinct) {id : TaskId}
    (interrupted : ∀ i t, d.TaskAt i t → t.id = id → t.status = .running ∨ t.status = .failed)
    {status : TaskStatus} (back : status = .pending ∨ status = .failed) (now : Timestamp) :
    d.Handles (.recovery id) (d.modifyTask id (Store.withStatus status now)) := by
  rw [modifyTask_eq_mapTasks hdistinct, mapTasks_eq_mapAt]
  refine ⟨_, rfl, fun i t ht => ?_⟩
  by_cases hid : t.id = id
  · rw [if_pos hid]
    subst hid
    exact .recovered now (interrupted i t ht rfl) back
  · rw [if_neg hid]
    exact .kept hid

end Dag

end Stagewise
