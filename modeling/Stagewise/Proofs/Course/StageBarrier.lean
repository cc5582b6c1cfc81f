import Stagewise.Proofs.Course.Barrier
import Stagewise.Proofs.Course.Play
/-!
# The barrier between stages

A request to execute a task goes out only behind a record that the drive loop has stored for it: the
dag runs at the stage of the task, and everything in the stages before is done. A task that was ever
seen to have succeeded is not executed again.
-/

namespace Stagewise.Course

variable {s : Course} {a : Agent} {q : DispatchRequest} {earlier : List Occurrence}

/-- Whatever happens to a dag: when a request to execute a task goes out, the record that the drive
loop stored last says that the dag runs at the stage of the task and is not rolled back, that the
task runs, and that every task of the stages before is done; and no record so far has shown the task
as succeeded. -/
theorem executes_behind_stage (h : s.Lived) (hsent : .sent a q :: earlier <:+ s.history)
    (hexecute : q.action = .execute) :
    (∃ d i, stepped? earlier = some d ∧ d.status = .running ∧ d.operator ≠ .rollback ∧
        d.stage = i + 1 ∧ d.TaskAt i q.task ∧ q.task.status = .running ∧
        ∀ j t, j < i → d.TaskAt j t → t.status.isDone) ∧
      ∀ author d, .wrote author d ∈ earlier → ¬ d.Shows q.task.id .succeeded := by
  obtain ⟨s₀, b, rest, hlived, rfl, sending, next⟩ := h.moment_of_sent hsent
  have hlaunching := hlived.launching_of_execute sending next hexecute
  have hmem : (a, q) ∈ b.rest := next ▸ List.mem_cons_self ..
  constructor
  · obtain ⟨d, hd, hrunning, hoperator, htasks⟩ := hlaunching.committed
    obtain ⟨hs, i, ht, hstage, hbehind⟩ := htasks (a, q) hmem
    exact ⟨d, i, hd, hrunning, hoperator, hstage, ht, hs, fun j t hj htask => hbehind j t htask hj⟩
  · intro author d hd hshown
    have hstays := hlived.succeeded_stays hlaunching.forward hd hshown
    have hdistinct := hlived.held.sound.shaped.distinct
    rcases (hlaunching.requests (a, q) hmem).2 with hs | hs
    · exact absurd (hdistinct.shows_unique hstays hs) (by decide)
    · exact absurd (hdistinct.shows_unique hstays hs) (by decide)

/-- The second stage is sent out behind the first. -/
theorem executes_behind_stage_worked : ∃ a q earlier d,
    (Sample.course (Sample.worked.take 7)).history = .sent a q :: earlier ∧
      stepped? earlier = some d ∧ d.stage = 2 ∧ d.status = .running ∧ d.TaskAt 1 q.task ∧
        q.task.status = .running ∧ ∀ t, d.TaskAt 0 t → t.status.isDone := by
  obtain ⟨a, q, earlier, hhistory, hexecute, hstage⟩ : ∃ a q earlier,
      (Sample.course (Sample.worked.take 7)).history = .sent a q :: earlier ∧ q.action = .execute ∧
        (stepped? earlier).map (·.stage) = some 2 := ⟨_, _, _, rfl, rfl, rfl⟩
  have hsent : .sent a q :: earlier <:+ (Sample.course (Sample.worked.take 7)).history :=
    hhistory.symm ▸ List.suffix_refl _
  obtain ⟨⟨d, i, hd, hrunning, -, hi, ht, hs, hbehind⟩, -⟩ :=
    executes_behind_stage (Sample.lived (Sample.worked.take 7)) hsent hexecute
  rw [hd, Option.map_some, Option.some.injEq] at hstage
  obtain rfl : i = 1 := by omega
  exact ⟨a, q, earlier, d, hhistory, hd, hstage, hrunning, ht, hs, fun t => hbehind 0 t (by decide)⟩

end Stagewise.Course
