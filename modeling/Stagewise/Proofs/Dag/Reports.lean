import Stagewise.Engine.Report
import Stagewise.Proofs.Dag.Place
import Stagewise.Proofs.Lists
/-!
# What folding reports does

Folding the reports of a barrier changes exactly the tasks that are reported: such a task fails when
one of its reports does, and otherwise has succeeded or is rolled back. Every other task stays as it
is.
-/

namespace Stagewise

/-- The report is an error, or the outcome of a failure. -/
def Report.fails (r : Report) : Bool :=
  match r.result with
  | .ok outcome => outcome.status == .failed
  | .error _ => true

/-- What never changes about a task. -/
def Task.identity (t : Task) : TaskId × String × String × Capabilities :=
  (t.id, t.name, t.typeName, t.capabilities)

theorem Task.id_eq_of_identity {t u : Task} (h : t.identity = u.identity) : t.id = u.id :=
  congrArg (·.1) h

theorem Task.capabilities_eq_of_identity {t u : Task} (h : t.identity = u.identity) :
    t.capabilities = u.capabilities := congrArg (·.2.2.2) h

/-- A task with the reports about it folded in. -/
def Task.folding (t : Task) (reports : List Report) : Folding :=
  (reports.filter (·.task == t.id)).foldl Folding.add ⟨t, none, []⟩

namespace Folding

theorem add_identity (f : Folding) (r : Report) : (f.add r).task.identity = f.task.identity := by
  cases hresult : r.result with
  | ok outcome =>
    simp only [add, hresult, adopt, enter, note]
    split <;> split <;> rfl
  | error e => simp only [add, hresult, enter, note, Task.identity]

theorem add_error_isSome (f : Folding) (r : Report) :
    (f.add r).error.isSome = (f.error.isSome || r.fails) := by
  cases hresult : r.result with
  | ok outcome =>
    by_cases hfailed : outcome.status = .failed
    · simp only [add, Report.fails, hresult, adopt, enter, note, hfailed, if_true]
      split <;> simp
    · simp only [add, Report.fails, hresult, adopt, enter, hfailed, if_false]
      split <;> simp [hfailed]
  | error e => simp [add, Report.fails, hresult, enter, note]

theorem foldl_add_identity (reports : List Report) (f : Folding) :
    (reports.foldl add f).task.identity = f.task.identity := by
  induction reports generalizing f with
  | nil => rfl
  | cons r rest ih => rw [List.foldl_cons, ih, add_identity]

theorem foldl_add_error_isSome (reports : List Report) (f : Folding) :
    (reports.foldl add f).error.isSome = (f.error.isSome || reports.any Report.fails) := by
  induction reports generalizing f with
  | nil => simp
  | cons r rest ih => rw [List.foldl_cons, ih, add_error_isSome, List.any_cons, Bool.or_assoc]

end Folding

/-- A task after its reports. -/
def Task.folded (t : Task) (reports : List Report) (action : Action) (now : Timestamp) : Task :=
  (t.folding reports).close action now

@[simp] theorem Task.folded_identity (t : Task) (reports : List Report) (action : Action)
    (now : Timestamp) :
    (t.folded reports action now).identity = t.identity :=
  Folding.foldl_add_identity _ _

@[simp] theorem Task.folded_id (t : Task) (reports : List Report) (action : Action)
    (now : Timestamp) :
    (t.folded reports action now).id = t.id :=
  Task.id_eq_of_identity (t.folded_identity reports action now)

theorem Task.folding_error_isSome_iff (t : Task) (reports : List Report) :
    (t.folding reports).error.isSome ↔ ∃ r ∈ reports, r.task = t.id ∧ r.fails := by
  rw [Task.folding, Folding.foldl_add_error_isSome]
  simp

theorem Task.folded_status (t : Task) (reports : List Report) (action : Action) (now : Timestamp) :
    (t.folded reports action now).status
      = if ∃ r ∈ reports, r.task = t.id ∧ r.fails then .failed else action.success := by
  simp only [Task.folded, Folding.close, Task.folding_error_isSome_iff]

namespace Dag

theorem id_of_task? {d : Dag} {id : TaskId} {t : Task} (h : d.task? id = some t) : t.id = id := by
  simpa using List.find?_some h

theorem task?_eq_some_iff {d : Dag} (h : d.Distinct) {id : TaskId} {t : Task} :
    d.task? id = some t ↔ t ∈ d.tasks ∧ t.id = id := by
  constructor
  · intro hfind
    exact ⟨List.mem_of_find?_eq_some hfind, id_of_task? hfind⟩
  · rintro ⟨ht, rfl⟩
    cases hfind : d.task? t.id with
    | none =>
      have hnone := List.find?_eq_none.mp hfind t ht
      simp at hnone
    | some u =>
      rw [List.inj_on_of_nodup_map h (List.mem_of_find?_eq_some hfind) ht (id_of_task? hfind)]

theorem task?_eq_none_iff {d : Dag} {id : TaskId} :
    d.task? id = none ↔ ∀ t ∈ d.tasks, t.id ≠ id := by
  simp [task?]

theorem addTask_dag {f : Folded} (h : f.dag.Distinct) (action : Action) (now : Timestamp)
    (reports : List Report) (id : TaskId) :
    (f.addTask action now reports id).dag
      = f.dag.mapTasks fun t => if t.id = id then t.folded reports action now else t := by
  cases hfind : f.dag.task? id with
  | none =>
    have hid := task?_eq_none_iff.mp hfind
    have hsame : f.dag.mapTasks (fun t => if t.id = id then t.folded reports action now else t)
        = f.dag := by
      rw [mapTasks_congr fun t ht => if_neg (hid t ht), mapTasks_self]
    simp only [Folded.addTask, hfind, hsame]
  | some t =>
    obtain ⟨ht, rfl⟩ := (task?_eq_some_iff h).mp hfind
    simp only [Folded.addTask, hfind, modifyTask_eq_mapTasks h]
    refine mapTasks_congr fun u hu => ?_
    by_cases hid : u.id = t.id
    · rw [if_pos hid, if_pos hid, List.inj_on_of_nodup_map h hu ht hid]
      rfl
    · rw [if_neg hid, if_neg hid]

theorem Distinct.addTask {f : Folded} (h : f.dag.Distinct) (action : Action) (now : Timestamp)
    (reports : List Report) (id : TaskId) : (f.addTask action now reports id).dag.Distinct := by
  rw [addTask_dag h, mapTasks_eq_mapAt]
  exact h.mapAt fun _ t => by split <;> simp

theorem addTask_failure_isSome {f : Folded} (h : f.dag.Distinct) (action : Action) (now : Timestamp)
    (reports : List Report) (id : TaskId) :
    (f.addTask action now reports id).failure.isSome ↔
      f.failure.isSome ∨ ∃ t ∈ f.dag.tasks, t.id = id ∧ ∃ r ∈ reports, r.task = t.id ∧ r.fails := by
  cases hfind : f.dag.task? id with
  | none =>
    have hid := task?_eq_none_iff.mp hfind
    have hnone : ¬ ∃ t ∈ f.dag.tasks, t.id = id ∧ ∃ r ∈ reports, r.task = t.id ∧ r.fails :=
      fun ⟨t, ht, htid, _⟩ => hid t ht htid
    simp only [Folded.addTask, hfind, hnone, or_false]
  | some t =>
    obtain ⟨ht, rfl⟩ := (task?_eq_some_iff h).mp hfind
    have hone : (t.folding reports).error.isSome ↔
        ∃ u ∈ f.dag.tasks, u.id = t.id ∧ ∃ r ∈ reports, r.task = u.id ∧ r.fails := by
      rw [Task.folding_error_isSome_iff]
      constructor
      · exact fun hfails => ⟨t, ht, rfl, hfails⟩
      · rintro ⟨u, -, hid, hfails⟩
        rwa [hid] at hfails
    rw [← hone, Task.folding]
    simp only [Folded.addTask, hfind]
    simp

theorem foldl_addTask {ids : List TaskId} (hids : ids.Nodup) {f : Folded} (h : f.dag.Distinct)
    (action : Action) (now : Timestamp) (reports : List Report) :
    (ids.foldl (Folded.addTask action now reports) f).dag
        = f.dag.mapTasks (fun t => if t.id ∈ ids then t.folded reports action now else t) ∧
      ((ids.foldl (Folded.addTask action now reports) f).failure.isSome ↔
        f.failure.isSome ∨ ∃ t ∈ f.dag.tasks, t.id ∈ ids ∧ ∃ r ∈ reports, r.task = t.id ∧
          r.fails) := by
  induction ids generalizing f with
  | nil => simp [mapTasks_self]
  | cons id rest ih =>
    rw [List.nodup_cons] at hids
    have hone := addTask_dag h action now reports id
    have hkeep : ∀ t : Task, (if t.id = id then t.folded reports action now else t).id = t.id :=
      fun t => by split <;> simp
    obtain ⟨hdag, hfailure⟩ := ih hids.2 (h.addTask action now reports id)
    constructor
    · rw [List.foldl_cons, hdag, hone, mapTasks_mapTasks]
      -- A task that is folded in is not met again, since no identifier is repeated.
      refine mapTasks_congr fun t _ => ?_
      by_cases ht : t.id = id
      · simp [ht, hids.1]
      · simp [ht]
    · rw [List.foldl_cons, hfailure, addTask_failure_isSome h, hone, mapTasks_tasks, or_assoc]
      refine or_congr_right ?_
      constructor
      · rintro (⟨t, ht, hid, hfails⟩ | ⟨u, hu, hid, hfails⟩)
        · exact ⟨t, ht, List.mem_cons.mpr (.inl hid), hfails⟩
        · obtain ⟨t, ht, rfl⟩ := List.mem_map.mp hu
          rw [hkeep] at hid hfails
          exact ⟨t, ht, List.mem_cons_of_mem _ hid, hfails⟩
      · rintro ⟨t, ht, hid, hfails⟩
        rcases List.mem_cons.mp hid with hid | hid
        · exact .inl ⟨t, ht, hid, hfails⟩
        · refine .inr ⟨_, List.mem_map_of_mem ht, ?_, ?_⟩
          · rwa [hkeep]
          · rwa [hkeep]

/-- Folds reports into a dag, taking up the tasks in an order of one's own. -/
def foldedIn (d : Dag) (ids : List TaskId) (reports : List Report) (action : Action)
    (now : Timestamp) : Folded :=
  ids.foldl (Folded.addTask action now reports) ⟨d, [], [], none⟩

section FoldedIn

variable {d : Dag} {ids : List TaskId} {reports : List Report} {action : Action} {now : Timestamp}

theorem mem_of_taken (hids : ids.Perm ((reports.map (·.task)).eraseDups)) {id : TaskId} :
    id ∈ ids ↔ ∃ r ∈ reports, r.task = id := by
  rw [hids.mem_iff, List.mem_eraseDups, List.mem_map]

theorem nodup_of_taken (hids : ids.Perm ((reports.map (·.task)).eraseDups)) : ids.Nodup :=
  hids.nodup_iff.mpr (nodup_eraseDups _)

theorem foldedIn_dag (h : d.Distinct) (hids : ids.Perm ((reports.map (·.task)).eraseDups)) :
    (d.foldedIn ids reports action now).dag
      = d.mapTasks fun t => if ∃ r ∈ reports,
        r.task = t.id then t.folded reports action now else t := by
  rw [foldedIn, (foldl_addTask (nodup_of_taken hids) h action now reports).1]
  simp only [mem_of_taken hids]

theorem foldedIn_failure_isSome (h : d.Distinct)
    (hids : ids.Perm ((reports.map (·.task)).eraseDups)) :
    (d.foldedIn ids reports action now).failure.isSome ↔ ∃ t ∈ d.tasks, ∃ r ∈ reports,
      r.task = t.id ∧ r.fails := by
  rw [foldedIn, (foldl_addTask (nodup_of_taken hids) h action now reports).2]
  simp only [Option.isSome_none, Bool.false_eq_true, false_or, mem_of_taken hids]
  constructor
  · rintro ⟨t, ht, -, hfails⟩
    exact ⟨t, ht, hfails⟩
  · rintro ⟨t, ht, r, hr, hid, hfails⟩
    exact ⟨t, ht, ⟨r, hr, hid⟩, r, hr, hid, hfails⟩

end FoldedIn

/-- Folding reports changes the tasks that are reported, and nothing else. -/
theorem applyReports_dag {d : Dag} (h : d.Distinct) (reports : List Report) (action : Action)
    (now : Timestamp) :
    (d.applyReports reports action now).dag
      = d.mapTasks fun t => if ∃ r ∈ reports,
        r.task = t.id then t.folded reports action now else t :=
  foldedIn_dag h .rfl

/-- A failure is noted when one of the tasks of the dag has a report that fails. -/
theorem applyReports_failure_isSome {d : Dag} (h : d.Distinct) (reports : List Report)
    (action : Action) (now : Timestamp) :
    (d.applyReports reports action now).failure.isSome ↔ ∃ t ∈ d.tasks, ∃ r ∈ reports,
      r.task = t.id ∧ r.fails :=
  foldedIn_failure_isSome h .rfl

/-- The tasks of a dag after the reports of a barrier. -/
def reported (d : Dag) (reports : List Report) (action : Action) (now : Timestamp) : Dag :=
  d.mapTasks fun t => if ∃ r ∈ reports, r.task = t.id then t.folded reports action now else t

section

variable {d : Dag} {reports : List Report} {action : Action} {now : Timestamp} {t : Task}

theorem mem_reported_iff : t ∈ (d.reported reports action now).tasks ↔
    ∃ u ∈ d.tasks,
      (if ∃ r ∈ reports, r.task = u.id then u.folded reports action now else u) = t := by
  rw [reported, mapTasks_tasks, List.mem_map]

/-- A task with a report of failure has failed. -/
theorem failed_of_fails (ht : t ∈ d.tasks) (hfails : ∃ r ∈ reports, r.task = t.id ∧ r.fails) :
    ∃ t' ∈ (d.reported reports action now).tasks, t'.id = t.id ∧ t'.status = .failed := by
  have hreported : ∃ r ∈ reports, r.task = t.id :=
    hfails.imp fun r ⟨hr, hid, _⟩ => ⟨hr, hid⟩
  refine ⟨_, mem_reported_iff.mpr ⟨t, ht, if_pos hreported⟩, t.folded_id .., ?_⟩
  rw [Task.folded_status, if_pos hfails]

end

theorem settle_execute {d : Dag} (h : d.Distinct) (reports : List Report) (now : Timestamp) :
    (d.settle reports .execute now).dag = d.reported reports .execute now :=
  applyReports_dag h reports .execute now

/-- A rollback that fails for one of the tasks ends the dag as failed. -/
theorem settle_rollback {d : Dag} (h : d.Distinct) (reports : List Report) (now : Timestamp) :
    (d.settle reports .rollback now).dag
      = if ∃ t ∈ d.tasks, ∃ r ∈ reports, r.task = t.id ∧ r.fails then
          { d.reported reports .rollback now with status := .failed }
        else d.reported reports .rollback now := by
  have hdag := applyReports_dag h reports .rollback now
  have hiff := applyReports_failure_isSome h reports .rollback now
  rw [reported, ← hdag]
  by_cases hfails : ∃ t ∈ d.tasks, ∃ r ∈ reports, r.task = t.id ∧ r.fails
  · obtain ⟨e, he⟩ := Option.isSome_iff_exists.mp (hiff.mpr hfails)
    simp only [settle, he, if_pos hfails]
  · have hnone := Option.not_isSome_iff_eq_none.mp (mt hiff.mp hfails)
    simp only [settle, hnone, if_neg hfails]

end Dag

end Stagewise
