import Stagewise.Proofs.Course.Outcome
/-!
# The books of a task

When a task was started and when it was over is written down by whoever changes its status, and each
of them resets some of the fields only. The fields still agree with the status in every record, as
they do in every way of handling a task. Where a task may show which status follows from the regime
that its dag is under.
-/

namespace Stagewise

/-- What is written down about a task agrees with its status. -/
structure Task.Booked (t : Task) : Prop where
  finished : t.finishedAt.isSome ↔ t.status.isTerminal
  started : t.status = .running → t.startedAt.isSome ∧ t.agentResults = .empty

theorem TaskStatus.isTerminal_iff {status : TaskStatus} : status.isTerminal ↔
    status = .succeeded ∨ status = .failed ∨ status = .skipped ∨ status = .rolledBack := by
  cases status <;> simp [isTerminal]

/-- A task that is over is booked as soon as there is a point in time at which it was. -/
theorem Task.Booked.of_ended {t : Task} (ended : t.status.isTerminal)
    (finished : t.finishedAt.isSome) : t.Booked where
  finished := iff_of_true finished ended
  started := fun running => by simp [running, TaskStatus.isTerminal] at ended

/-- A task that waits is booked while there is no such point in time. -/
theorem Task.Booked.of_pending {t : Task} (pending : t.status = .pending)
    (unfinished : t.finishedAt = none) : t.Booked where
  finished := by simp [pending, unfinished, TaskStatus.isTerminal]
  started := fun running => by simp [pending] at running

/-- Whoever handles a task leaves it booked. -/
theorem Handled.booked {author : Author} {t t' : Task} (h : Handled author t t')
    (ht : t.Booked) : t'.Booked := by
  cases h with
  | kept => exact ht
  | launched => exact ⟨by simp [TaskStatus.isTerminal], fun _ => ⟨rfl, rfl⟩⟩
  | @folded action =>
    refine .of_ended ?_ rfl
    rw [Task.folded_status]
    split
    · rfl
    · cases action <;> rfl
  | retried => exact .of_pending rfl rfl
  | passed => exact .of_ended rfl rfl
  | stopped => exact .of_ended rfl rfl
  | skipped => exact .of_ended rfl rfl
  | recovered now interrupted back =>
    rcases back with rfl | rfl
    · exact .of_pending rfl rfl
    · exact .of_ended rfl rfl

/-- A task runs because a step has sent it out, or because it has run before and was left alone. -/
theorem Handled.to_running {author : Author} {t t' : Task} (h : Handled author t t')
    (running : t'.status = .running) :
    author = .step ∨ author ≠ .operator .cancel ∧ t.status = .running := by
  cases h with
  | kept spared =>
    refine .inr ⟨?_, running⟩
    rintro rfl
    have hunended : ¬ t.status.isTerminal := by simp [running, TaskStatus.isTerminal]
    exact spared hunended
  | launched => exact .inl rfl
  | @folded action =>
    rw [Task.folded_status] at running
    split at running
    · cases running
    · cases action <;> cases running
  | recovered now interrupted back =>
    rw [Store.withStatus] at running
    rcases back with rfl | rfl <;> cases running
  | _ => cases running

namespace Dag

variable {d : Dag}

/-- Whatever is written down in a dag agrees, and nothing runs in a cancelled one. -/
structure Booked (d : Dag) : Prop where
  tasks : ∀ i t, d.TaskAt i t → t.Booked
  cancelled : d.status = .cancelled → ∀ i t, d.TaskAt i t → t.status ≠ .running

theorem Booked.handled (h : d.Booked) {author : Author} {d' : Dag}
    (handles : d.Handles author d') (follows : d.Follows author d') : d'.Booked where
  tasks := by
    intro i t' ht'
    obtain ⟨t, ht, hhandled⟩ := handles.taskBefore ht'
    exact hhandled.booked (h.tasks i t ht)
  cancelled := by
    intro cancelled i t' ht' running
    obtain ⟨t, ht, hhandled⟩ := handles.taskBefore ht'
    have hbefore := follows.cancelled.mp cancelled
    rcases hhandled.to_running running with rfl | ⟨hauthor, hrunning⟩
    · have hgoing : d.status = .running := follows.may
      rcases hbefore with hs | hs
      · simp [hgoing] at hs
      · cases hs
    · exact h.cancelled (hbefore.resolve_right hauthor) i t ht hrunning

theorem Sound.here_of_running (h : d.Sound) (hcancelled : d.status ≠ .cancelled) {i : Nat}
    {t : Task} (ht : d.TaskAt i t) (running : t.status = .running) : i + 1 = d.stage := by
  rcases h.regime with hr | hr | hr
  · exact hr.here_of_running ht running
  · exact absurd running (hr.not_running ht)
  · exact absurd hr.status hcancelled

theorem Sound.cancelled_of_skipped (h : d.Sound) {i : Nat} {t : Task} (ht : d.TaskAt i t)
    (skipped : t.status = .skipped) : d.status = .cancelled := by
  rcases h.regime with hr | hr | hr
  · rcases hr.status_cases ht with hs | hs | hs | hs <;> simp [hs] at skipped
  · exact absurd skipped (hr.not_skipped ht)
  · exact hr.status

theorem Sound.of_rolledBack (h : d.Sound) {i : Nat} {t : Task} (ht : d.TaskAt i t)
    (undone : t.status = .rolledBack) : d.operator = .rollback ∨ d.status = .cancelled := by
  rcases h.regime with hr | hr | hr
  · rcases hr.status_cases ht with hs | hs | hs | hs <;> simp [hs] at undone
  · exact .inl hr.operator
  · exact .inr hr.status

end Dag

namespace Course

variable {s : Course}

theorem Lived.booked (h : s.Lived) {author : Author} {d : Dag} (hd : .wrote author d ∈ s.history) :
    d.Booked := by
  refine h.record_induction ?submitted ?wrote hd
  case submitted =>
    intro registry ids spec now d built
    have hmade {i : Nat} {t : Task} (ht : d.TaskAt i t) :
        t.status = .pending ∧ t.finishedAt = none := by
      obtain ⟨j, n, u, -, -, hu⟩ := DagSpec.build_taskAt built ht
      obtain ⟨-, hpending, hunfinished, -⟩ := DagSpec.makeTask_eq_ok hu
      exact ⟨hpending, hunfinished⟩
    refine ⟨fun i t ht => ?_, fun _ i t ht => ?_⟩
    · exact .of_pending (hmade ht).1 (hmade ht).2
    · simp [(hmade ht).1]
  case wrote => exact fun d author d' handles follows booked => booked.handled handles follows

/-- In every record and for every task, the time at which the task was over is set just when its
status says that it is. A running task has been started, nothing is reported about it, and it is one
of the node at work. Tasks are skipped in cancelled dags only, and rolled back only in those and in
dags that are told to roll back. -/
theorem books_agree (h : s.Lived) {author : Author} {d : Dag} (hd : .wrote author d ∈ s.history)
    {t : Task} (ht : t ∈ d.tasks) :
    (t.finishedAt.isSome ↔ t.status = .succeeded ∨ t.status = .failed ∨ t.status = .skipped ∨
      t.status = .rolledBack) ∧
      (t.status = .running → t.startedAt.isSome ∧ t.agentResults = .empty ∧
        ∃ n, d.currentNode? = some n ∧ t ∈ n.tasks) ∧
      (t.status = .skipped → d.status = .cancelled) ∧
      (t.status = .rolledBack → d.operator = .rollback ∨ d.status = .cancelled) := by
  have hsound := h.sound_of_wrote hd
  have hbooked := h.booked hd
  obtain ⟨i, hat⟩ := Dag.mem_tasks_iff.mp ht
  have htask := hbooked.tasks i t hat
  refine ⟨htask.finished.trans TaskStatus.isTerminal_iff, fun running => ?_,
    hsound.cancelled_of_skipped hat, hsound.of_rolledBack hat⟩
  obtain ⟨hstarted, hresults⟩ := htask.started running
  have hcancelled : d.status ≠ .cancelled := fun hs => hbooked.cancelled hs i t hat running
  have hi := hsound.here_of_running hcancelled hat running
  obtain ⟨n, hn⟩ := hsound.shaped.currentNode
  exact ⟨hstarted, hresults, n, hn, (Dag.mem_currentNode_iff hn).mpr ⟨i, hi, hat⟩⟩

end Course

namespace Sample

/-- The dag is cancelled while its first stage is out. -/
def abandoned : List Happening := [.proceed dawn dawn, .send, .command .cancel dawn dawn]

end Sample

namespace Course

/-- The task of the stage that was never reached is skipped. -/
theorem books_agree_abandoned :
    .wrote (.operator .cancel) (Sample.course Sample.abandoned).record ∈
        (Sample.course Sample.abandoned).history ∧
      ∃ t ∈ (Sample.course Sample.abandoned).record.tasks, t.status = .skipped ∧
        t.finishedAt.isSome ∧ (Sample.course Sample.abandoned).record.status = .cancelled := by
  have hd : .wrote (.operator .cancel) (Sample.course Sample.abandoned).record ∈
      (Sample.course Sample.abandoned).history := List.mem_cons_self
  obtain ⟨t, ht, hs⟩ : ∃ t ∈ (Sample.course Sample.abandoned).record.tasks,
      t.status = .skipped := by decide
  obtain ⟨hfinished, -, hskipped, -⟩ := books_agree (Sample.lived _) hd ht
  exact ⟨hd, t, ht, hs, hfinished.mpr (.inr (.inr (.inl hs))), hskipped hs⟩

end Course

end Stagewise
