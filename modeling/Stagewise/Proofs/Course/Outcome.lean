import Stagewise.Proofs.Course.History
import Stagewise.Proofs.Course.Play
/-!
# How a dag ends

When a dag is declared to have succeeded, only its last node is looked at, and when it fails, only
the node at work. That a dag has succeeded still says of every task that it is done, and that it has
failed says that one is not.
-/

namespace Stagewise

namespace Dag

variable {d : Dag}

theorem allTasksDone_iff : d.allTasksDone ↔ ∀ i t, d.TaskAt i t → t.status.isDone := by
  simp only [allTasksDone, List.all_eq_true]
  constructor
  · rintro h i t ⟨n, hn, ht⟩
    exact h n (List.mem_of_getElem? hn) t ht
  · intro h n hn t ht
    obtain ⟨i, hi⟩ := List.mem_iff_getElem?.mp hn
    exact h i t ⟨n, hi, ht⟩

theorem Advancing.not_done_of_failed (h : d.Advancing) (failed : d.status = .failed) :
    ¬ d.allTasksDone := by
  obtain ⟨⟨i, t, ht, -, hs⟩, -⟩ := h.parked failed
  intro hdone
  simpa [hs, TaskStatus.isDone] using allTasksDone_iff.mp hdone i t ht

/-- A rollback leaves no task done that it has not stopped at, not even one that was never
started. -/
theorem Unwinding.not_done_of_failed (h : d.Unwinding) (hshape : d.Shaped)
    (failed : d.status = .failed) :
    ¬ d.allTasksDone := by
  intro hdone
  rcases h.ended failed with ⟨i, t, ht, -, hs⟩ | hnone
  · simpa [hs, TaskStatus.isDone] using allTasksDone_iff.mp hdone i t ht
  · obtain ⟨i, t, ht, -⟩ := hshape.inhabited_here
    have hopen := allTasksDone_iff.mp hdone i t ht
    rcases h.undone_of_not_executed ht (hnone i t ht)
      with hs | hs <;> simp [hs, TaskStatus.isDone] at hopen

theorem Sound.not_done_of_failed (h : d.Sound) (failed : d.status = .failed) :
    ¬ d.allTasksDone := by
  rcases h.regime with hr | hr | hr
  · exact hr.not_done_of_failed failed
  · exact hr.not_done_of_failed h.shaped failed
  · exact absurd hr.status (by simp [failed])

theorem Sound.done_of_succeeded (h : d.Sound) (succeeded : d.status = .succeeded) :
    d.allTasksDone ∧ d.stage = d.maxStage := by
  rcases h.regime with hr | hr | hr
  · obtain ⟨hstage, hall⟩ := hr.finished succeeded
    refine ⟨allTasksDone_iff.mpr fun i t ht => ?_, hstage⟩
    rw [hall i t ht]
    rfl
  · rcases hr.status with hs | hs <;> simp [hs] at succeeded
  · exact absurd hr.status (by simp [succeeded])

end Dag

namespace Course

variable {s : Course}

theorem Lived.sound_of_wrote (h : s.Lived) {author : Author} {d : Dag}
    (hd : .wrote author d ∈ s.history) :
    d.Sound := by
  refine h.history_induction (P := fun history _ => .wrote author d ∈ history → d.Sound) ?_ ?_ ?_ hd
  · intro d' hsound _ _ hmem
    obtain ⟨-, rfl⟩ := Occurrence.wrote.inj (List.mem_singleton.mp hmem)
    exact hsound
  · intro s b a q rest _ _ _ ih hmem
    exact ih ((List.mem_cons.mp hmem).resolve_left (by simp))
  · intro s author' d' _ _ _ hsound ih hmem
    rcases List.mem_cons.mp hmem with heq | hearlier
    · obtain ⟨-, rfl⟩ := Occurrence.wrote.inj heq
      exact hsound
    · exact ih hearlier

/-- Whatever happens to a dag: when a record of it says that it has succeeded or failed, it has
succeeded just when every task of every node is done, and then it is at its last stage. -/
theorem succeeded_iff_done (h : s.Lived) {author : Author} {d : Dag}
    (hd : .wrote author d ∈ s.history) (hend : d.status = .succeeded ∨ d.status = .failed) :
    (d.status = .succeeded ↔ d.allTasksDone) ∧ (d.status = .succeeded → d.stage = d.maxStage) := by
  have hsound := h.sound_of_wrote hd
  refine ⟨⟨fun hs => (hsound.done_of_succeeded hs).1, fun hdone => ?_⟩,
    fun hs => (hsound.done_of_succeeded hs).2⟩
  rcases hend with hs | hs
  · exact hs
  · exact absurd hdone (hsound.not_done_of_failed hs)

theorem succeeded_iff_done_worked :
    (Sample.course Sample.worked).record.status = .succeeded ∧
      (Sample.course Sample.worked).record.allTasksDone ∧
        (Sample.course Sample.worked).record.stage = 2 := by
  have hlived := Sample.lived Sample.worked
  have hstatus : (Sample.course Sample.worked).record.status = .succeeded := by rfl
  obtain ⟨author, hd⟩ := mem_of_latest hlived.latest
  obtain ⟨hiff, hstage⟩ := succeeded_iff_done hlived hd (.inl hstatus)
  exact ⟨hstatus, hiff.mp hstatus, (hstage hstatus).trans (by rfl)⟩

end Course

end Stagewise
