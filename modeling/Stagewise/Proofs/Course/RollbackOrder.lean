import Stagewise.Proofs.Course.Outcome
import Stagewise.Proofs.Course.StageBarrier
/-!
# The order of a rollback

Once a rollback has been commanded, requests go out backward only: to tasks of the stage at work
that have run and may be rolled back, and not before everything that has run in later stages is
compensated. A task that is rolled back is left alone. When the rollback has ended, whether the dag
counts as rolled back says whether anything is left that has run, in any of its nodes.
-/

namespace Stagewise

namespace Dag

variable {d : Dag}

theorem firstFailed?_eq_none_iff {nodes : List Node} :
    firstFailed? nodes = none ↔ ∀ n ∈ nodes, ∀ t ∈ n.tasks, t.status ≠ .failed := by
  simp only [firstFailed?, List.findSome?_eq_none_iff, Option.map_eq_none_iff,
    List.head?_eq_none_iff, Node.failedTasks, List.filter_eq_nil_iff, beq_iff_eq]

theorem failed_of_isRolledBack (h : d.isRolledBack? = some true) :
    d.status = .failed ∧ d.operator = .rollback := by
  rw [isRolledBack?] at h
  by_cases hstate : (d.isFailed && d.operator == .rollback) = true
  · simpa [isFailed] using hstate
  · rw [if_neg hstate] at h
    cases h

/-- In a rollback that has ended, the dag counts as rolled back when no task up to its stage is
failed. -/
theorem isRolledBack?_eq_some_true_iff (hshape : d.Shaped) (failed : d.status = .failed)
    (hback : d.operator = .rollback) :
    d.isRolledBack? = some true ↔ ∀ i t, i + 1 ≤ d.stage → d.TaskAt i t → t.status ≠ .failed := by
  have hle : d.stage ≤ d.nodes.length := hshape.maxStage_eq ▸ hshape.stage_le
  simp only [isRolledBack?, isFailed, failed, hback, failedTask?, reached?, if_pos hle, BEq.rfl,
    Bool.and_self, if_true, Option.map_some, Option.some.injEq, Option.isNone_iff_eq_none,
      firstFailed?_eq_none_iff, List.mem_reverse]
  constructor
  · rintro h i t hi ⟨n, hn, ht⟩
    have htake : (d.nodes.take d.stage)[i]? = some n := by rwa [List.getElem?_take_of_lt (by omega)]
    exact h n (List.mem_of_getElem? htake) t ht
  · intro h n hn t ht
    obtain ⟨i, hi⟩ := List.mem_iff_getElem?.mp hn
    rw [List.getElem?_take, Option.ite_none_right_eq_some] at hi
    exact h i t (by omega) ⟨n, hi.2, ht⟩

/-- The failed tasks up to the stage stand for everything that is left to compensate. -/
theorem Unwinding.isRolledBack?_iff (h : d.Unwinding) (hshape : d.Shaped)
    (failed : d.status = .failed) :
    d.isRolledBack? = some true ↔ ∀ i t, d.TaskAt i t → ¬ t.status.isExecuted := by
  rw [isRolledBack?_eq_some_true_iff hshape failed h.operator]
  constructor
  · intro hnone
    rcases h.ended failed with ⟨i, t, ht, hi, hs⟩ | hall
    · exact absurd hs (hnone i t (Nat.le_of_eq hi) ht)
    · exact hall
  · intro hall i t _ ht hs
    exact hall i t ht (by simp [hs, TaskStatus.isExecuted])

end Dag

namespace Course

variable {s : Course} {a : Agent} {q : DispatchRequest} {earlier : List Occurrence}

/-- Whatever happens to a dag: after a rollback was commanded, no request to execute goes out; a
request to roll back goes to a task of the stage at work that has succeeded or failed and may be
rolled back, when no task of a later stage is left that has run; no request goes out for a task that
was shown as rolled back; and a record that has failed under rollback counts as rolled back just
when no task of any node is left that has run. -/
theorem rollback_in_order (h : s.Lived) :
    (∀ a q earlier, .sent a q :: earlier <:+ s.history →
      (RollbackGiven earlier → q.action ≠ .execute) ∧
      (q.action = .rollback → ∃ d i t, latest? earlier = some d ∧ d.stage = i + 1 ∧ d.TaskAt i t ∧
        t.id = q.task.id ∧ (t.status = .succeeded ∨ t.status = .failed) ∧
        t.capabilities.canRollback ∧
        ∀ j u, d.stage < j + 1 → d.TaskAt j u → ¬ u.status.isExecuted) ∧
      ∀ author d, .wrote author d ∈ earlier → ¬ d.Shows q.task.id .rolledBack) ∧
    ∀ author d, .wrote author d ∈ s.history → d.status = .failed → d.operator = .rollback →
      (d.isRolledBack? = some true ↔ ∀ i t, d.TaskAt i t → ¬ t.status.isExecuted) := by
  constructor
  · intro a q earlier hsent
    obtain ⟨s₀, b, rest, hlived, rfl, sending, next⟩ := h.moment_of_sent hsent
    refine ⟨fun hgiven hexecute => ?_, fun hrollback => ?_, fun author d hd hshown => ?_⟩
    · exact (hlived.launching_of_execute sending next hexecute).forward hgiven
    · have hcompensating := hlived.compensating_of_rollback sending next hrollback
      obtain ⟨-, i, t, ht, hid, hstage, hs, hpermitted⟩ :=
        hcompensating.requests (a, q) (next ▸ List.mem_cons_self ..)
      exact ⟨s₀.record, i, t, hlived.latest, hstage, ht, hid, hs, hpermitted,
        fun j u hj hu => hcompensating.later j u hu hj⟩
    · obtain ⟨status, hs, hexecuted⟩ := hlived.shown_of_next sending next
      have hstays := hlived.rolledBack_stays hd hshown
      rw [hlived.held.sound.shaped.distinct.shows_unique hs hstays] at hexecuted
      simp [TaskStatus.isExecuted] at hexecuted
  · intro author d hd failed hback
    have hsound := h.sound_of_wrote hd
    exact (hsound.unwinding_of_rollback hback).isRolledBack?_iff hsound.shaped failed

/-- The rollback of a dag that was interrupted leaves nothing that has run. -/
theorem rollback_in_order_undone :
    (∃ a q earlier, .sent a q :: earlier <:+ (Sample.course (Sample.undone.take 12)).history ∧
      q.action = .rollback ∧ ∃ d i t, latest? earlier = some d ∧ d.stage = i + 1 ∧ d.TaskAt i t ∧
        t.id = q.task.id ∧ (t.status = .succeeded ∨ t.status = .failed)) ∧
    ∀ i t, (Sample.course Sample.undone).record.TaskAt i t → ¬ t.status.isExecuted := by
  constructor
  · obtain ⟨a, q, earlier, hhistory, hrollback⟩ : ∃ a q earlier,
        (Sample.course (Sample.undone.take 12)).history = .sent a q :: earlier ∧
          q.action = .rollback :=
      ⟨_, _, _, rfl, rfl⟩
    have hsent : .sent a q :: earlier <:+ (Sample.course (Sample.undone.take 12)).history :=
      hhistory.symm ▸ List.suffix_refl _
    have horder := (rollback_in_order (Sample.lived (Sample.undone.take 12))).1 a q earlier hsent
    obtain ⟨d, i, t, hd, hi, ht, hid, hs, -⟩ := horder.2.1 hrollback
    exact ⟨a, q, earlier, hsent, hrollback, d, i, t, hd, hi, ht, hid, hs⟩
  · have hlived := Sample.lived Sample.undone
    obtain ⟨author, hd⟩ := mem_of_latest hlived.latest
    exact ((rollback_in_order hlived).2 author _ hd (by rfl) (by rfl)).mp (by rfl)

end Course

end Stagewise
