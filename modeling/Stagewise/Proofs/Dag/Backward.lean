import Stagewise.Proofs.Dag.Regime
/-!
# Steps of a rollback keep a dag unwinding

What a step of a rollback makes of an unwinding dag: it sends out what has run in the node at work,
steps back over a node that holds nothing more to compensate, or ends. When the reports are folded
in, every task that was sent out is rolled back or has failed, and a failure ends the rollback.
-/

namespace Stagewise.Dag

section Unwinding

variable {d : Dag} {n : Node}

theorem unwindBatch_eq_nil_iff : unwindBatch n = [] ↔ ∀ t ∈ n.tasks, ¬ t.status.isExecuted := by
  simp only [unwindBatch, batchOf_eq_nil_iff, Bool.not_eq_true]

theorem Unwinding.not_running (h : d.Unwinding) {i : Nat} {t : Task} (ht : d.TaskAt i t) :
    t.status ≠ .running := by
  rcases Nat.lt_trichotomy (i + 1) d.stage with hlt | heq | hgt
  · simp [h.behind i t ht hlt]
  · exact (h.here i t ht heq).2
  · rcases h.ahead i t ht hgt with hs | hs <;> simp [hs]

theorem Unwinding.not_skipped (h : d.Unwinding) {i : Nat} {t : Task} (ht : d.TaskAt i t) :
    t.status ≠ .skipped := by
  rcases Nat.lt_trichotomy (i + 1) d.stage with hlt | heq | hgt
  · simp [h.behind i t ht hlt]
  · exact (h.here i t ht heq).1
  · rcases h.ahead i t ht hgt with hs | hs <;> simp [hs]

theorem Unwinding.not_executed_ahead (h : d.Unwinding) {i : Nat} {t : Task} (ht : d.TaskAt i t)
    (hi : d.stage < i + 1) : ¬ t.status.isExecuted := by
  rcases h.ahead i t ht hi with hs | hs <;> simp [hs, TaskStatus.isExecuted]

theorem Unwinding.ended_of_executed (h : d.Unwinding) {i : Nat} {t : Task} (ht : d.TaskAt i t)
    (hs : t.status.isExecuted) : t.status = .succeeded ∨ t.status = .failed := by
  rcases TaskStatus.isExecuted_iff.mp hs with hs | hs
  · exact absurd hs (h.not_running ht)
  · exact hs

theorem Unwinding.undone_of_not_executed (h : d.Unwinding) {i : Nat} {t : Task} (ht : d.TaskAt i t)
    (hs : ¬ t.status.isExecuted) : t.status = .pending ∨ t.status = .rolledBack := by
  have hskipped := h.not_skipped ht
  cases hstatus : t.status <;> simp_all [TaskStatus.isExecuted]

theorem Unwinding.idle_here (hn : d.currentNode? = some n) (idle : unwindBatch n = []) {i : Nat}
    {t : Task} (ht : d.TaskAt i t) (hi : i + 1 = d.stage) : ¬ t.status.isExecuted :=
  unwindBatch_eq_nil_iff.mp idle t ((mem_currentNode_iff hn).mpr ⟨i, hi, ht⟩)

theorem Unwinding.stepBack (h : d.Unwinding) (hn : d.currentNode? = some n)
    (running : d.status = .running) (idle : unwindBatch n = []) :
    { d with stage := d.stage - 1 }.Unwinding where
  operator := h.operator
  status := h.status
  behind := fun i t ht hi => h.behind i t ht (Nat.lt_of_lt_of_le hi (Nat.sub_le ..))
  here := by
    intro i t ht hi
    have hs : t.status = .succeeded := h.behind i t ht (by simp only at hi; omega)
    simp [hs]
  ahead := by
    intro i t ht hi
    rcases Nat.lt_or_ge d.stage (i + 1) with hahead | hhere
    · exact h.ahead i t ht hahead
    · exact h.undone_of_not_executed ht (idle_here hn idle ht (by simp only at hi; omega))
  permitted := h.permitted
  ended := fun hs => by simp [running] at hs

theorem Unwinding.finish (h : d.Unwinding) (hshape : d.Shaped) (hn : d.currentNode? = some n)
    (idle : unwindBatch n = []) (last : d.stage ≤ 1) : { d with status := .failed }.Unwinding where
  operator := h.operator
  status := .inr rfl
  behind := h.behind
  here := h.here
  ahead := h.ahead
  permitted := h.permitted
  ended := by
    intro _
    refine .inr fun i t ht => ?_
    have hpos := hshape.stage_pos
    rcases Nat.lt_or_ge d.stage (i + 1) with hi | hi
    · exact h.not_executed_ahead ht hi
    · exact idle_here hn idle ht (by omega)

/-- An unwinding dag goes on unwinding when tasks of its node that have run are rolled back, or
fail. -/
theorem Unwinding.rework (h : d.Unwinding) {g : Nat → Task → Task}
    (hcapabilities : ∀ i t, d.TaskAt i t → (g i t).capabilities = t.capabilities)
    (hg : ∀ i t, d.TaskAt i t → (g i t).status = t.status ∨ i + 1 = d.stage ∧ t.status.isExecuted ∧
      ((g i t).status = .rolledBack ∨ (g i t).status = .failed)) :
    { d.mapAt g with status := .running }.Unwinding where
  operator := h.operator
  status := .inl rfl
  behind := by
    intro i t ht hi
    obtain ⟨u, hu, rfl⟩ := taskAt_mapAt.mp ht
    rcases hg i u hu with hsame | ⟨hhere, -⟩
    · exact hsame.trans (h.behind i u hu hi)
    · exact absurd hhere (Nat.ne_of_lt hi)
  here := by
    intro i t ht hi
    obtain ⟨u, hu, rfl⟩ := taskAt_mapAt.mp ht
    rcases hg i u hu with hsame | ⟨-, -, hs | hs⟩
    · exact hsame ▸ h.here i u hu hi
    · simp [hs]
    · simp [hs]
  ahead := by
    intro i t ht hi
    obtain ⟨u, hu, rfl⟩ := taskAt_mapAt.mp ht
    rcases hg i u hu with hsame | ⟨hhere, -⟩
    · exact hsame ▸ h.ahead i u hu hi
    · exact absurd hhere (Nat.ne_of_gt hi)
  permitted := by
    intro i t ht hexecuted
    obtain ⟨u, hu, rfl⟩ := taskAt_mapAt.mp ht
    rw [hcapabilities i u hu]
    rcases hg i u hu with hsame | ⟨-, hu', -⟩
    · exact h.permitted i u hu (hsame ▸ hexecuted)
    · exact h.permitted i u hu hu'
  ended := fun hs => by simp at hs

theorem Unwinding.fail (h : d.Unwinding)
    (failed : ∃ i t, d.TaskAt i t ∧ i + 1 = d.stage ∧ t.status = .failed) :
    { d with status := .failed }.Unwinding where
  operator := h.operator
  status := .inr rfl
  behind := h.behind
  here := h.here
  ahead := h.ahead
  permitted := h.permitted
  ended := fun _ => .inl failed

/-- The reports of the tasks of the node that have run keep a dag unwinding. -/
theorem Unwinding.settle (h : d.Unwinding) (hdistinct : d.Distinct) (running : d.status = .running)
    {reports : List Report}
    (hcover : ∀ i t, d.TaskAt i t →
      ((∃ r ∈ reports, r.task = t.id) ↔ i + 1 = d.stage ∧ t.status.isExecuted))
    (now : Timestamp) : (d.settle reports .rollback now).dag.Unwinding := by
  have hfolded (t : Task) : (t.folded reports .rollback now).status
      = if ∃ r ∈ reports, r.task = t.id ∧ r.fails then .failed else .rolledBack :=
        Task.folded_status ..
  have hdag : (d.reported reports .rollback now).Unwinding := by
    rw [reported, mapTasks_eq_mapAt, ← withStatus_self (d := d.mapAt _) running]
    refine h.rework (fun i t _ => ?_) fun i t ht => ?_
    · split
      · exact Task.capabilities_eq_of_identity (t.folded_identity ..)
      · rfl
    · by_cases hreported : ∃ r ∈ reports, r.task = t.id
      · obtain ⟨hi, hexecuted⟩ := (hcover i t ht).mp hreported
        rw [if_pos hreported, hfolded]
        refine .inr ⟨hi, hexecuted, ?_⟩
        split
        · exact .inr rfl
        · exact .inl rfl
      · rw [if_neg hreported]
        exact .inl rfl
  rw [settle_rollback hdistinct]
  split
  · rename_i hfails
    -- The report that fails is about a task of the node at work, so the rollback halts there.
    obtain ⟨t, hmem, r, hr, hid, hrfails⟩ := hfails
    obtain ⟨i, ht⟩ := mem_tasks_iff.mp hmem
    have hreported : ∃ r ∈ reports, r.task = t.id := ⟨r, hr, hid⟩
    refine hdag.fail ⟨i, t.folded reports .rollback now, ?_, ((hcover i t ht).mp hreported).1, ?_⟩
    · rw [reported, mapTasks_eq_mapAt]
      exact taskAt_mapAt.mpr ⟨t, ht, if_pos hreported⟩
    · rw [hfolded]
      exact if_pos ⟨r, hr, hid, hrfails⟩
  · exact hdag

end Unwinding

end Stagewise.Dag
