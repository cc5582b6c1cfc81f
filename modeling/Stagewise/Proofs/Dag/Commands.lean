import Mathlib.Tactic.ByContra
import Stagewise.Engine.Recovery
import Stagewise.Proofs.Dag.Backward
import Stagewise.Proofs.Dag.Forward
/-!
# What operator commands do

The conditions under which a command is accepted and the record that it makes. A command to retry or
pass keeps a dag advancing, and one to roll back turns it to unwinding, because it is accepted only
when everything that has run may be rolled back.
-/

namespace Stagewise

namespace Dag

/-- The accepted commands: the record that is made of a dag and the lines to log. -/
inductive Commanded (d : Dag) (now : Timestamp) : Operator → Dag → LogLines → Prop where
  | retry {n : Node} (failed : d.status = .failed) (forward : d.operator ≠ .rollback)
      (node : d.currentNode? = some n) (nonempty : n.failedTasks ≠ [])
      (permitted : ∀ t ∈ n.failedTasks, t.capabilities.canRetry) :
      Commanded d now .retry
        { d.modifyTasks (n.failedTasks.map (·.id)) again with
          status := .running, operator := .retry }
        ((n.failedTasks.map (·.id)).map fun id => (id, "retry requested by operator"))
  | pass {n : Node} (failed : d.status = .failed) (forward : d.operator ≠ .rollback)
      (node : d.currentNode? = some n) (nonempty : n.failedTasks ≠ [])
      (permitted : ∀ t ∈ n.failedTasks, t.capabilities.canPass) :
      Commanded d now .pass
        { d.modifyTasks (n.failedTasks.map (·.id)) fun t =>
            { t with status := .succeeded, finishedAt := some now } with
          status := .running, operator := .pass }
        ((n.failedTasks.map (·.id)).map fun id =>
          (id, "marked succeeded by operator override (PASS)"))
  | rollback {nodes : List Node} (failed : d.status = .failed) (reached : d.reached? = some nodes)
      (permitted : ∀ t ∈ nodes.flatMap (·.tasks), t.status.isExecuted →
        t.capabilities.canRollback) :
      Commanded d now .rollback { d with status := .running, operator := .rollback }
        (((nodes.flatMap (·.tasks)).filter (·.status.isExecuted)).map fun t =>
          (t.id, "rollback requested by operator"))
  | cancel (unfinished : d.status = .running ∨ d.status = .failed)
      (permitted : ∀ t ∈ d.tasks, t.status = .running → t.capabilities.canCancel) :
      Commanded d now .cancel
        { d.mapTasks (stopped now) with status := .cancelled, operator := .cancel }
        ((d.tasks.filter (·.status == .running)).map fun t => (t.id, "cancelled by operator"))

theorem demand_eq_ok_iff {command : Operator} {tasks : List Task} {u : Unit} :
    demand command tasks = .ok u ↔ ∀ t ∈ tasks, t.capabilities.permits command := by
  rw [demand]
  cases hfind : tasks.find? fun t => !t.capabilities.permits command with
  | none =>
    refine iff_of_true rfl fun t ht => ?_
    simpa using List.find?_eq_none.mp hfind t ht
  | some t =>
    refine iff_of_false (by simp) fun hall => ?_
    have hrefused : t.capabilities.permits command = false := by simpa using List.find?_some hfind
    simp [hall t (List.mem_of_find?_eq_some hfind)] at hrefused

theorem failedTasksPermitting_cases {d : Dag} {command : Operator} {ids : List TaskId}
    (h : d.failedTasksPermitting command = .ok ids) :
    ∃ n, d.status = .failed ∧ d.operator ≠ .rollback ∧ d.currentNode? = some n ∧
      n.failedTasks ≠ [] ∧ (∀ t ∈ n.failedTasks, t.capabilities.permits command) ∧
        ids = n.failedTasks.map (·.id) := by
  simp only [failedTasksPermitting] at h
  by_cases hstate : (!d.isFailed || d.operator == .rollback) = true
  · rw [if_pos hstate] at h
    cases h
  · rw [if_neg hstate] at h
    obtain ⟨n, hcurrent, h⟩ := bind_eq_ok h
    have hnode := current_eq_ok_iff.mp hcurrent
    by_cases hempty : n.failedTasks.isEmpty = true
    · rw [if_pos hempty] at h
      cases h
    · rw [if_neg hempty] at h
      obtain ⟨u, hdemand, h⟩ := bind_eq_ok h
      obtain rfl := Except.ok.inj h
      simp only [isFailed, Bool.or_eq_true, Bool.not_eq_true', beq_eq_false_iff_ne,
        beq_iff_eq, not_or, not_not] at hstate
      exact ⟨n, hstate.1, hstate.2, hnode, mt List.isEmpty_iff.mpr hempty,
        demand_eq_ok_iff.mp hdemand, rfl⟩

theorem retry_cases {d d' : Dag} {lines : LogLines} (now : Timestamp)
    (h : d.retry = .ok (d', lines)) :
    d.Commanded now .retry { d' with operator := .retry } lines := by
  obtain ⟨ids, hids, h⟩ := bind_eq_ok h
  obtain ⟨n, hfailed, hforward, hnode, hnonempty, hpermitted, rfl⟩ :=
    failedTasksPermitting_cases hids
  obtain ⟨rfl, rfl⟩ := Prod.mk.inj (Except.ok.inj h)
  exact .retry hfailed hforward hnode hnonempty hpermitted

theorem pass_cases {d d' : Dag} {now : Timestamp} {lines : LogLines}
    (h : d.pass now = .ok (d', lines)) :
    d.Commanded now .pass { d' with operator := .pass } lines := by
  obtain ⟨ids, hids, h⟩ := bind_eq_ok h
  obtain ⟨n, hfailed, hforward, hnode, hnonempty, hpermitted, rfl⟩ :=
    failedTasksPermitting_cases hids
  obtain ⟨rfl, rfl⟩ := Prod.mk.inj (Except.ok.inj h)
  exact .pass hfailed hforward hnode hnonempty hpermitted

theorem rollback_cases {d d' : Dag} {lines : LogLines} (now : Timestamp)
    (h : d.rollback = .ok (d', lines)) :
    d.Commanded now .rollback { d' with operator := .rollback } lines := by
  simp only [rollback] at h
  by_cases hstate : (!d.isFailed) = true
  · rw [if_pos hstate] at h
    cases h
  · rw [if_neg hstate] at h
    cases hreached : d.reached? with
    | none =>
      rw [hreached] at h
      cases h
    | some nodes =>
      rw [hreached] at h
      obtain ⟨u, hdemand, h⟩ := bind_eq_ok h
      obtain ⟨rfl, rfl⟩ := Prod.mk.inj (Except.ok.inj h)
      have hpermitted := demand_eq_ok_iff.mp hdemand
      refine .rollback (by simpa [isFailed] using hstate) hreached fun t ht hexecuted => ?_
      exact hpermitted t (List.mem_filter.mpr ⟨ht, hexecuted⟩)

theorem cancel_cases {d d' : Dag} {now : Timestamp} {lines : LogLines}
    (h : d.cancel now = .ok (d', lines)) :
    d.Commanded now .cancel { d' with operator := .cancel } lines := by
  simp only [cancel] at h
  by_cases hstate : (!(d.isRunning || d.isFailed)) = true
  · rw [if_pos hstate] at h
    cases h
  · rw [if_neg hstate] at h
    obtain ⟨u, hdemand, h⟩ := bind_eq_ok h
    obtain ⟨rfl, rfl⟩ := Prod.mk.inj (Except.ok.inj h)
    have hpermitted := demand_eq_ok_iff.mp hdemand
    refine .cancel (by simpa [isRunning, isFailed, or_iff_not_imp_left] using hstate) fun t ht hs =>
      ?_
    exact hpermitted t (List.mem_filter.mpr ⟨ht, by simpa using hs⟩)

/-- A command that is accepted is one of these, and its condition holds. -/
theorem command_cases {d d' : Dag} {operator : Operator} {now : Timestamp} {lines : LogLines}
    (h : d.command operator now = .ok (d', lines)) : d.Commanded now operator d' lines := by
  cases operator with
  | run => cases h
  | retry =>
    obtain ⟨made, hmade, h⟩ := bind_eq_ok h
    obtain ⟨rfl, rfl⟩ := Prod.mk.inj (Except.ok.inj h)
    exact retry_cases now hmade
  | pass =>
    obtain ⟨made, hmade, h⟩ := bind_eq_ok h
    obtain ⟨rfl, rfl⟩ := Prod.mk.inj (Except.ok.inj h)
    exact pass_cases hmade
  | rollback =>
    obtain ⟨made, hmade, h⟩ := bind_eq_ok h
    obtain ⟨rfl, rfl⟩ := Prod.mk.inj (Except.ok.inj h)
    exact rollback_cases now hmade
  | cancel =>
    obtain ⟨made, hmade, h⟩ := bind_eq_ok h
    obtain ⟨rfl, rfl⟩ := Prod.mk.inj (Except.ok.inj h)
    exact cancel_cases hmade

theorem Commanded.failed {d d' : Dag} {operator : Operator} {now : Timestamp} {lines : LogLines}
    (h : d.Commanded now operator d' lines) (hne : operator ≠ .cancel) : d.status = .failed := by
  cases h with
  | retry failed => exact failed
  | pass failed => exact failed
  | rollback failed => exact failed
  | cancel => exact absurd rfl hne

/-! ## What becomes of the regimes -/

theorem mem_failedTasks_ids_iff {d : Dag} (h : d.Distinct) {n : Node}
    (hn : d.currentNode? = some n) {i : Nat} {t : Task} (ht : d.TaskAt i t) :
    t.id ∈ n.failedTasks.map (·.id) ↔ i + 1 = d.stage ∧ t.status = .failed := by
  simp only [Node.failedTasks, List.mem_map, List.mem_filter, beq_iff_eq]
  constructor
  · rintro ⟨u, ⟨hmem, hs⟩, hid⟩
    obtain ⟨j, hj, hu⟩ := (mem_currentNode_iff hn).mp hmem
    obtain ⟨rfl, rfl⟩ := h.unique hu ht hid
    exact ⟨hj, hs⟩
  · rintro ⟨hi, hs⟩
    exact ⟨t, ⟨(mem_currentNode_iff hn).mpr ⟨i, hi, ht⟩, hs⟩, rfl⟩

theorem nodup_failedTasks_ids {d : Dag} (h : d.Distinct) {n : Node} (hn : d.currentNode? = some n) :
    (n.failedTasks.map (·.id)).Nodup := by
  obtain ⟨_, hget⟩ := currentNode?_eq_some_iff.mp hn
  rw [Distinct, tasks, List.map_flatMap, List.nodup_flatMap] at h
  have hfailed : n.failedTasks.Sublist n.tasks := List.filter_sublist
  exact List.Nodup.sublist (hfailed.map _) (h.1 n (List.mem_of_getElem? hget))

theorem modifyTasks_failedTasks {d : Dag} (h : d.Distinct) {n : Node} (hn : d.currentNode? = some n)
    {f : Task → Task} (hf : ∀ t, (f t).id = t.id) :
    d.modifyTasks (n.failedTasks.map (·.id)) f
      = d.mapTasks fun t => if t.id ∈ n.failedTasks.map (·.id) then f t else t :=
  modifyTasks_eq_mapTasks h (nodup_failedTasks_ids h hn) hf

theorem Advancing.withOperator {d : Dag} (h : d.Advancing) {operator : Operator}
    (hop : operator ≠ .rollback) :
    { d with operator }.Advancing :=
  ⟨hop, h.status, h.behind, h.here, h.ahead, h.parked, h.finished⟩

/-- When the failed tasks of a parked dag are put into another status, the dag advances again, and
no task has failed or runs. -/
theorem Advancing.resume {d : Dag} (h : d.Advancing) (hdistinct : d.Distinct)
    (failed : d.status = .failed) {n : Node} (hn : d.currentNode? = some n) {f : Task → Task}
    (hf : ∀ t, (f t).id = t.id)
    (hstatus : ∀ t, (f t).status = .pending ∨ (f t).status = .succeeded) (operator : Operator)
    (hop : operator ≠ .rollback) :
    ({ d.modifyTasks (n.failedTasks.map (·.id)) f with status := .running, operator } :
      Dag).Advancing ∧ ∀ i t, (d.modifyTasks (n.failedTasks.map (·.id)) f).TaskAt i t →
        t.status ≠ .failed ∧ t.status ≠ .running := by
  rw [modifyTasks_failedTasks hdistinct hn hf, mapTasks_eq_mapAt]
  constructor
  · refine Advancing.withOperator (h.rework fun i t ht => ?_) hop
    by_cases hid : t.id ∈ n.failedTasks.map (·.id)
    · rw [if_pos hid]
      refine .inr ⟨((mem_failedTasks_ids_iff hdistinct hn ht).mp hid).1, ?_⟩
      rcases hstatus t with hs | hs <;> simp [hs]
    · rw [if_neg hid]
      exact .inl rfl
  · intro i t ht
    obtain ⟨u, hu, rfl⟩ := taskAt_mapAt.mp ht
    by_cases hid : u.id ∈ n.failedTasks.map (·.id)
    · rw [if_pos hid]
      rcases hstatus u with hs | hs <;> simp [hs]
    · rw [if_neg hid]
      refine ⟨fun hs => hid ?_, (h.parked failed).2 i u hu⟩
      exact (mem_failedTasks_ids_iff hdistinct hn hu).mpr ⟨h.here_of_failed hu hs, hs⟩

theorem mem_reached {d : Dag} {nodes : List Node} (h : d.reached? = some nodes) {i : Nat} {t : Task}
    (ht : d.TaskAt i t) (hi : i + 1 ≤ d.stage) : t ∈ nodes.flatMap (·.tasks) := by
  simp only [reached?, Option.ite_none_right_eq_some, Option.some.injEq] at h
  obtain ⟨-, rfl⟩ := h
  obtain ⟨n, hn, hmem⟩ := ht
  have htake : (d.nodes.take d.stage)[i]? = some n := by rwa [List.getElem?_take_of_lt (by omega)]
  exact List.mem_flatMap.mpr ⟨n, List.mem_of_getElem? htake, hmem⟩

/-- A failed dag that may be rolled back unwinds from then on. -/
theorem Sound.rollback {d : Dag} (h : d.Sound) (failed : d.status = .failed) {nodes : List Node}
    (hreached : d.reached? = some nodes)
    (permitted : ∀ t ∈ nodes.flatMap (·.tasks), t.status.isExecuted → t.capabilities.canRollback) :
    { d with status := .running, operator := .rollback }.Unwinding := by
  rcases h.regime with hr | hr | hr
  · constructor
    case operator => rfl
    case status => exact .inl rfl
    case behind => exact hr.behind
    case here => exact fun i t ht hi => ⟨(hr.here i t ht hi).1, (hr.parked failed).2 i t ht⟩
    case ahead => exact fun i t ht hi => .inl (hr.ahead i t ht hi)
    case permitted =>
      intro i t ht hexecuted
      rcases Nat.lt_or_ge d.stage (i + 1) with hi | hi
      · simp [hr.ahead i t ht hi, TaskStatus.isExecuted] at hexecuted
      · exact permitted t (mem_reached hreached ht hi) hexecuted
    case ended => exact fun hs => by simp at hs
  · exact ⟨rfl, .inl rfl, hr.behind, hr.here, hr.ahead, hr.permitted, fun hs => by simp at hs⟩
  · simp [hr.status] at failed

theorem Sound.advancing_of_ne_rollback {d : Dag} (h : d.Sound) (hop : d.operator ≠ .rollback)
    (hstatus : d.status ≠ .cancelled) : d.Advancing := by
  rcases h.regime with hr | hr | hr
  · exact hr
  · exact absurd hr.operator hop
  · exact absurd hr.status hstatus

theorem Sound.unwinding_of_rollback {d : Dag} (h : d.Sound) (hop : d.operator = .rollback) :
    d.Unwinding := by
  rcases h.regime with hr | hr | hr
  · exact absurd hop hr.operator
  · exact hr
  · simp [hr.operator] at hop

/-! ## Recovery -/

/-- The interrupted task of a dag is put into the status that recovery gives it. -/
theorem Advancing.recovered {d : Dag} (h : d.Advancing) (hdistinct : d.Distinct)
    (running : d.status = .running) {i : Nat} {t : Task} (ht : d.TaskAt i t)
    (hs : t.status = .running) {status : TaskStatus}
    (hstatus : status = .pending ∨ status = .failed) (now : Timestamp) :
    (d.modifyTask t.id (Store.withStatus status now)).Advancing := by
  rw [modifyTask_eq_mapTasks hdistinct, mapTasks_eq_mapAt,
    ← withStatus_self (d := d.mapAt _) running]
  refine h.rework fun j u hu => ?_
  by_cases hid : u.id = t.id
  · obtain ⟨rfl, rfl⟩ := hdistinct.unique hu ht hid
    rw [if_pos rfl]
    refine .inr ⟨h.here_of_running ht hs, ?_⟩
    rcases hstatus with rfl | rfl <;> simp [Store.withStatus]
  · rw [if_neg hid]
    exact .inl rfl

theorem recovered_status (r : Registry) (t : Task) :
    (r.recovered t).1 = .pending ∨ (r.recovered t).1 = .failed := by
  rw [Registry.recovered]
  split
  · exact .inr rfl
  · split
    · exact .inl rfl
    · exact .inr rfl

end Dag

end Stagewise
