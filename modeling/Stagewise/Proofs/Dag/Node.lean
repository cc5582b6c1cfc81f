import Mathlib.Tactic.SplitIfs
import Stagewise.Dag.Basic
/-!
# What the status of a node says

The status of a node is the first of several overlapping rules that holds. Each status is put here
as what the tasks are like when the node shows it, so that no two of these descriptions overlap, and
the readings that a step forward depends on follow from them.
-/

namespace Stagewise

theorem TaskStatus.isDone_iff {s : TaskStatus} : s.isDone ↔ s = .succeeded ∨ s = .skipped := by
  cases s <;> decide

theorem TaskStatus.isExecuted_iff {s : TaskStatus} :
    s.isExecuted ↔ s = .running ∨ s = .succeeded ∨ s = .failed := by
  cases s <;> decide

namespace Node

variable {n : Node}

/-- The tasks of a node have been undone as far as they had run. -/
def Undone (n : Node) : Prop :=
  (∃ t ∈ n.tasks, t.status = .rolledBack) ∧
    ∀ t ∈ n.tasks, t.status = .rolledBack ∨ t.status = .pending ∨ t.status = .skipped

/-- What the tasks of a node are like when it shows a status. -/
inductive Reads (n : Node) : NodeStatus → Prop where
  | skipped (all : ∀ t ∈ n.tasks, t.status = .skipped) : n.Reads .skipped
  | succeeded (done : ∀ t ∈ n.tasks, t.status.isDone) (ran : ∃ t ∈ n.tasks, t.status ≠ .skipped) :
      n.Reads .succeeded
  | failed (broken : ∃ t ∈ n.tasks, t.status = .failed) : n.Reads .failed
  | rolledBack (undone : n.Undone) : n.Reads .rolledBack
  | pending (inhabited : n.tasks ≠ []) (all : ∀ t ∈ n.tasks, t.status = .pending) :
      n.Reads .pending
  | running (left : ∃ t ∈ n.tasks, ¬ t.status.isDone) (sound : ∀ t ∈ n.tasks, t.status ≠ .failed)
      (kept : ¬ n.Undone) (begun : ∃ t ∈ n.tasks, t.status ≠ .pending) : n.Reads .running

open Classical in
theorem status_eq (n : Node) : n.status =
    if ∀ t ∈ n.tasks, t.status = .skipped then .skipped
    else if ∀ t ∈ n.tasks, t.status.isDone then .succeeded
    else if ∃ t ∈ n.tasks, t.status = .failed then .failed
    else if n.Undone then .rolledBack
    else if ∀ t ∈ n.tasks, t.status = .pending then .pending
    else .running := by
  simp [status, Undone, and_comm, or_assoc]

theorem reads_status (n : Node) : n.Reads n.status := by
  rw [status_eq]
  split_ifs with hskipped hdone hbroken hundone hpending
  · exact .skipped hskipped
  · exact .succeeded hdone (by simpa using hskipped)
  · exact .failed hbroken
  · exact .rolledBack hundone
  · refine .pending ?_ hpending
    intro hnil
    apply hskipped
    simp [hnil]
  · exact .running (by simpa using hdone) (by simpa using hbroken) hundone (by simpa using hpending)

open Classical in
/-- With a task that is not done the first two rules do not hold. -/
theorem status_of_left (left : ∃ t ∈ n.tasks, ¬ t.status.isDone) : n.status =
    if ∃ t ∈ n.tasks, t.status = .failed then .failed
    else if n.Undone then .rolledBack
    else if ∀ t ∈ n.tasks, t.status = .pending then .pending
    else .running := by
  obtain ⟨t, ht, hopen⟩ := left
  have hdone : ¬ ∀ u ∈ n.tasks, u.status.isDone := fun done => hopen (done t ht)
  have hskipped : ¬ ∀ u ∈ n.tasks, u.status = .skipped := fun all => hopen (by rw [all t ht]; rfl)
  rw [status_eq, if_neg hskipped, if_neg hdone]

/-- The descriptions exclude each other: only the first rule that holds is met by one of them. -/
theorem status_of_reads {s : NodeStatus} (h : n.Reads s) : n.status = s := by
  cases h with
  | skipped all => rw [status_eq, if_pos all]
  | succeeded done ran =>
    obtain ⟨t, ht, hs⟩ := ran
    rw [status_eq, if_neg fun all => hs (all t ht), if_pos done]
  | failed broken =>
    obtain ⟨t, ht, hs⟩ := broken
    rw [status_of_left ⟨t, ht, by simp [hs, TaskStatus.isDone]⟩, if_pos ⟨t, ht, hs⟩]
  | rolledBack undone =>
    obtain ⟨⟨t, ht, hs⟩, rest⟩ := undone
    have hbroken : ¬ ∃ u ∈ n.tasks, u.status = .failed := by
      rintro ⟨u, hu, hfailed⟩
      simpa [hfailed] using rest u hu
    rw [status_of_left ⟨t, ht, by simp [hs, TaskStatus.isDone]⟩, if_neg hbroken,
      if_pos ⟨⟨t, ht, hs⟩, rest⟩]
  | pending inhabited all =>
    obtain ⟨t, ht⟩ := List.exists_mem_of_ne_nil _ inhabited
    have hbroken : ¬ ∃ u ∈ n.tasks, u.status = .failed := by
      rintro ⟨u, hu, hfailed⟩
      simp [all u hu] at hfailed
    have hundone : ¬ n.Undone := by
      rintro ⟨⟨u, hu, hrolled⟩, -⟩
      simp [all u hu] at hrolled
    rw [status_of_left ⟨t, ht, by simp [all t ht, TaskStatus.isDone]⟩, if_neg hbroken,
      if_neg hundone, if_pos all]
  | running left sound kept begun =>
    have hbroken : ¬ ∃ u ∈ n.tasks, u.status = .failed := fun ⟨u, hu, hs⟩ => sound u hu hs
    have hpending : ¬ ∀ u ∈ n.tasks, u.status = .pending := by
      obtain ⟨u, hu, hs⟩ := begun
      exact fun all => hs (all u hu)
    rw [status_of_left left, if_neg hbroken, if_neg kept, if_neg hpending]

theorem status_eq_iff {s : NodeStatus} : n.status = s ↔ n.Reads s := by
  constructor
  · rintro rfl
    exact reads_status n
  · exact status_of_reads

theorem status_isDone_iff : n.status.isDone ↔ ∀ t ∈ n.tasks, t.status.isDone := by
  constructor
  · intro h
    have hreads := reads_status n
    generalize n.status = s at h hreads
    cases hreads with
    | skipped all =>
      intro t ht
      rw [all t ht]
      rfl
    | succeeded done => exact done
    | _ => cases h
  · intro done
    by_cases hskipped : ∀ t ∈ n.tasks, t.status = .skipped
    · rw [status_of_reads (.skipped hskipped)]
      rfl
    · rw [status_of_reads (.succeeded done (by simpa using hskipped))]
      rfl

theorem status_eq_failed_iff : n.status = .failed ↔ ∃ t ∈ n.tasks, t.status = .failed := by
  rw [status_eq_iff]
  constructor
  · rintro ⟨⟩
    assumption
  · exact .failed

theorem status_eq_rolledBack_iff : n.status = .rolledBack ↔ n.Undone := by
  rw [status_eq_iff]
  constructor
  · rintro ⟨⟩
    assumption
  · exact .rolledBack

theorem status_eq_pending_iff (inhabited : n.tasks ≠ []) :
    n.status = .pending ↔ ∀ t ∈ n.tasks, t.status = .pending := by
  rw [status_eq_iff]
  constructor
  · rintro ⟨⟩
    assumption
  · exact .pending inhabited

/-- The rules ask of all tasks or of any, and so not for their order. -/
theorem status_of_perm {m : Node} (h : m.tasks.Perm n.tasks) : m.status = n.status := by
  simp only [status, h.all_eq, h.any_eq]

theorem agent_mem_targets (n : Node) (t : Task) : t.agent ∈ n.targets t := by
  rw [targets]
  split
  · assumption
  · simp

end Node

end Stagewise
