import Stagewise.Proofs.Dag.Regime
/-!
# Steps forward keep a dag advancing

What a step forward makes of an advancing dag: it leaves a stage, ends, is parked, or sends out
exactly the tasks of its node that have not ended, all of them running from then on. When the
reports of these tasks are folded in, no task is left running.
-/

namespace Stagewise.Dag

/-- No task has failed while another runs. -/
def Steady (d : Dag) : Prop :=
  ∀ i t j u, d.TaskAt i t → d.TaskAt j u → t.status = .failed → u.status ≠ .running

theorem steady_of_no_running {d : Dag} (h : ∀ i t, d.TaskAt i t → t.status ≠ .running) : d.Steady :=
  fun _ _ j u _ hu _ => h j u hu

theorem steady_of_no_failed {d : Dag} (h : ∀ i t, d.TaskAt i t → t.status ≠ .failed) : d.Steady :=
  fun i t _ _ ht _ hs => absurd hs (h i t ht)

@[simp] theorem markRunning_id (now : Timestamp) (t : Task) : (markRunning now t).id = t.id := by
  rw [markRunning]
  split <;> rfl

theorem markRunning_identity (now : Timestamp) (t : Task) :
    (markRunning now t).identity = t.identity := by
  rw [markRunning]
  split <;> rfl

theorem markRunning_status (now : Timestamp) (t : Task) :
    (markRunning now t).status = if t.status.isTerminal then t.status else .running := by
  rw [markRunning]
  split <;> rfl

theorem launched_eq_mapAt {d : Dag} {n : Node} (hn : d.currentNode? = some n) (now : Timestamp) :
    (d.modifyCurrent fun _ => launched n now)
      = d.mapAt fun i t => if i + 1 = d.stage then markRunning now t else t :=
  modifyCurrent_eq_mapAt hn (markRunning now)

section Advancing

variable {d : Dag} {n : Node}

theorem Advancing.status_cases (h : d.Advancing) {i : Nat} {t : Task} (ht : d.TaskAt i t) :
    t.status = .pending ∨ t.status = .running ∨ t.status = .succeeded ∨ t.status = .failed := by
  rcases Nat.lt_trichotomy (i + 1) d.stage with hlt | heq | hgt
  · exact .inr (.inr (.inl (h.behind i t ht hlt)))
  · obtain ⟨hskipped, hback⟩ := h.here i t ht heq
    cases hs : t.status <;> simp_all
  · exact .inl (h.ahead i t ht hgt)

/-- Only at its stage has an advancing dag a task that neither waits nor has succeeded. -/
theorem Advancing.here_of_unsettled (h : d.Advancing) {i : Nat} {t : Task} (ht : d.TaskAt i t)
    (hpending : t.status ≠ .pending) (hsucceeded : t.status ≠ .succeeded) : i + 1 = d.stage := by
  rcases Nat.lt_trichotomy (i + 1) d.stage with hlt | heq | hgt
  · exact absurd (h.behind i t ht hlt) hsucceeded
  · exact heq
  · exact absurd (h.ahead i t ht hgt) hpending

theorem Advancing.here_of_running (h : d.Advancing) {i : Nat} {t : Task} (ht : d.TaskAt i t)
    (hs : t.status = .running) : i + 1 = d.stage :=
  h.here_of_unsettled ht (by simp [hs]) (by simp [hs])

theorem Advancing.here_of_failed (h : d.Advancing) {i : Nat} {t : Task} (ht : d.TaskAt i t)
    (hs : t.status = .failed) : i + 1 = d.stage :=
  h.here_of_unsettled ht (by simp [hs]) (by simp [hs])

theorem Advancing.succeeded_here (h : d.Advancing) (hn : d.currentNode? = some n)
    (done : ∀ t ∈ n.tasks, t.status.isDone) {i : Nat} {t : Task} (ht : d.TaskAt i t)
    (hi : i + 1 = d.stage) :
    t.status = .succeeded := by
  have hmem : t ∈ n.tasks := (mem_currentNode_iff hn).mpr ⟨i, hi, ht⟩
  rcases TaskStatus.isDone_iff.mp (done t hmem) with hs | hs
  · exact hs
  · exact absurd hs (h.here i t ht hi).1

theorem Advancing.advance (h : d.Advancing) (hn : d.currentNode? = some n)
    (running : d.status = .running) (done : ∀ t ∈ n.tasks, t.status.isDone) :
    { d with stage := d.stage + 1 }.Advancing where
  operator := h.operator
  status := h.status
  behind := by
    intro i t ht hi
    rcases Nat.lt_or_ge (i + 1) d.stage with hlt | hge
    · exact h.behind i t ht hlt
    · exact h.succeeded_here hn done ht (Nat.le_antisymm (Nat.le_of_lt_succ hi) hge)
  here := by
    intro i t ht hi
    have hs : t.status = .pending := h.ahead i t ht (by simp only at hi; omega)
    simp [hs]
  ahead := fun i t ht hi => h.ahead i t ht (Nat.lt_of_succ_lt hi)
  parked := fun hs => by simp [running] at hs
  finished := fun hs => by simp [running] at hs

theorem Advancing.steady_advance (h : d.Advancing) (hn : d.currentNode? = some n)
    (done : ∀ t ∈ n.tasks, t.status.isDone) : { d with stage := d.stage + 1 }.Steady := by
  refine steady_of_no_running fun i t ht hs => ?_
  have hi := h.here_of_running ht hs
  simp [h.succeeded_here hn done ht hi] at hs

theorem Advancing.finish (h : d.Advancing) (hshape : d.Shaped) (hn : d.currentNode? = some n)
    (done : ∀ t ∈ n.tasks, t.status.isDone) (last : d.maxStage ≤ d.stage) :
    { d with status := .succeeded }.Advancing where
  operator := h.operator
  status := by simp
  behind := h.behind
  here := h.here
  ahead := h.ahead
  parked := fun hs => by simp at hs
  finished := by
    intro _
    have hstage : d.stage = d.maxStage := Nat.le_antisymm hshape.stage_le last
    refine ⟨hstage, fun i t ht => ?_⟩
    have hlt := ht.lt_length
    rcases Nat.lt_or_ge (i + 1) d.stage with hi | hi
    · exact h.behind i t ht hi
    · have hmax := hshape.maxStage_eq
      exact h.succeeded_here hn done ht (by simp only at hlt; omega)

theorem Advancing.park (h : d.Advancing) (steady : d.Steady) (hn : d.currentNode? = some n)
    (failed : ∃ t ∈ n.tasks, t.status = .failed) : { d with status := .failed }.Advancing where
  operator := h.operator
  status := by simp
  behind := h.behind
  here := h.here
  ahead := h.ahead
  parked := by
    intro _
    obtain ⟨t, hmem, hs⟩ := failed
    obtain ⟨i, hi, ht⟩ := (mem_currentNode_iff hn).mp hmem
    exact ⟨⟨i, t, ht, hi, hs⟩, fun j u hu => steady i t j u ht hu hs⟩
  finished := fun hs => by simp at hs

/-- An advancing dag that is neither done nor failed at its stage has a task to send out. -/
theorem Advancing.launchBatch_ne_nil (h : d.Advancing) (hn : d.currentNode? = some n)
    {now : Timestamp} (sound : ∀ t ∈ n.tasks, t.status ≠ .failed)
    (left : ∃ t ∈ n.tasks, ¬ t.status.isDone) :
    launchBatch n now ≠ [] := by
  obtain ⟨t, hmem, hopen⟩ := left
  obtain ⟨i, _, ht⟩ := (mem_currentNode_iff hn).mp hmem
  have hrunning : (markRunning now t).status = .running := by
    rw [markRunning_status]
    rcases h.status_cases ht with hs | hs | hs | hs
    · simp [hs, TaskStatus.isTerminal]
    · simp [hs, TaskStatus.isTerminal]
    · simp [hs, TaskStatus.isDone] at hopen
    · exact absurd hs (sound t hmem)
  intro hnil
  have hnone := batchOf_eq_nil_iff.mp hnil (markRunning now t) (List.mem_map_of_mem hmem)
  simp [hrunning] at hnone

/-- An advancing dag goes on advancing when tasks of its node are changed in the ways of advancing
dags. -/
theorem Advancing.rework (h : d.Advancing) {g : Nat → Task → Task}
    (hg : ∀ i t, d.TaskAt i t → (g i t).status = t.status ∨
      i + 1 = d.stage ∧ (g i t).status ≠ .skipped ∧ (g i t).status ≠ .rolledBack) :
    { d.mapAt g with status := .running }.Advancing where
  operator := h.operator
  status := by simp
  behind := by
    intro i t ht hi
    obtain ⟨u, hu, rfl⟩ := taskAt_mapAt.mp ht
    rcases hg i u hu with hsame | ⟨hhere, -⟩
    · exact hsame.trans (h.behind i u hu hi)
    · exact absurd hhere (Nat.ne_of_lt hi)
  here := by
    intro i t ht hi
    obtain ⟨u, hu, rfl⟩ := taskAt_mapAt.mp ht
    rcases hg i u hu with hsame | ⟨-, hstatus⟩
    · exact hsame ▸ h.here i u hu hi
    · exact hstatus
  ahead := by
    intro i t ht hi
    obtain ⟨u, hu, rfl⟩ := taskAt_mapAt.mp ht
    rcases hg i u hu with hsame | ⟨hhere, -⟩
    · exact hsame.trans (h.ahead i u hu hi)
    · exact absurd hhere (Nat.ne_of_gt hi)
  parked := fun hs => by simp at hs
  finished := fun hs => by simp at hs

theorem Advancing.launch (h : d.Advancing) (hn : d.currentNode? = some n)
    (running : d.status = .running) (now : Timestamp) :
    (d.modifyCurrent fun _ => launched n now).Advancing := by
  rw [launched_eq_mapAt hn, ← withStatus_self (d := d.mapAt _) running]
  refine h.rework fun i t ht => ?_
  by_cases hi : i + 1 = d.stage
  · rw [if_pos hi, markRunning_status]
    split
    · exact .inl rfl
    · exact .inr ⟨hi, by simp⟩
  · rw [if_neg hi]
    exact .inl rfl

/-- The reports of all tasks that run keep a dag advancing, and none of its tasks runs any more. -/
theorem Advancing.settle (h : d.Advancing) (hdistinct : d.Distinct)
    (running : d.status = .running) {reports : List Report}
    (hcover : ∀ i t, d.TaskAt i t → ((∃ r ∈ reports, r.task = t.id) ↔ t.status = .running))
    (now : Timestamp) :
    (d.settle reports .execute now).dag.Advancing ∧
      ∀ i t, (d.settle reports .execute now).dag.TaskAt i t → t.status ≠ .running := by
  rw [settle_execute hdistinct, reported, mapTasks_eq_mapAt]
  have hended (t : Task) : (t.folded reports .execute now).status ≠ .running ∧
      (t.folded reports .execute now).status ≠ .skipped ∧
        (t.folded reports .execute now).status ≠ .rolledBack := by
    rw [Task.folded_status]
    split <;> decide
  constructor
  · rw [← withStatus_self (d := d.mapAt _) running]
    refine h.rework fun i t ht => ?_
    by_cases hreported : ∃ r ∈ reports, r.task = t.id
    · rw [if_pos hreported]
      exact .inr ⟨h.here_of_running ht ((hcover i t ht).mp hreported), (hended t).2⟩
    · rw [if_neg hreported]
      exact .inl rfl
  · intro i t ht
    obtain ⟨u, hu, rfl⟩ := taskAt_mapAt.mp ht
    by_cases hreported : ∃ r ∈ reports, r.task = u.id
    · rw [if_pos hreported]
      exact (hended u).1
    · rw [if_neg hreported]
      exact fun hs => hreported ((hcover i u hu).mpr hs)

end Advancing

end Stagewise.Dag
