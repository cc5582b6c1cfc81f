import Stagewise.Proofs.Course.Outcome
import Stagewise.Proofs.Dag.Acceptance
/-!
# The way on from a failed stage

A dag that has failed on its way forward is parked at a stage with a failed task, and none of its
tasks runs. So the operator can always have the failed tasks run again or count as succeeded, unless
one of them does not allow it. What a step forward does about a stage that is neither done nor
failed and still has nothing to send out, it never has to do.
-/

namespace Stagewise

namespace Dag

variable {d : Dag} {n : Node} {now : Timestamp} {command : Operator}

/-- The node at work is neither done nor failed, and none of its tasks can be sent out. -/
def Stuck (d : Dag) (now : Timestamp) : Prop :=
  ∃ n, d.currentNode? = some n ∧ ¬ n.status.isDone ∧ n.status ≠ .failed ∧ launchBatch n now = []

/-- What a step forward does when it has no tasks to send out. -/
def givingUp (d : Dag) (n : Node) (now : Timestamp) : Move :=
  ⟨some { d.modifyCurrent fun _ => launched n now with status := .failed },
    [.dagFailed d.stage s!"node '{n.name}' has no runnable tasks"], none⟩

/-- A failure that is put down to tasks does not read like one that is put down to their node. -/
theorem failureText_ne (failed : ∃ t ∈ n.tasks, t.status = .failed) (name : String) :
    failureText n ≠ s!"node '{name}' has no runnable tasks" := by
  obtain ⟨t, rest, hfailed⟩ : ∃ t rest, n.failedTasks = t :: rest := by
    obtain ⟨t, ht, hs⟩ := failed
    exact List.exists_cons_of_ne_nil (List.ne_nil_of_mem (List.mem_filter.mpr ⟨ht, by simp [hs]⟩))
  intro hsame
  have hfirst := congrArg (·.toList.head?) hsame
  simp only [failureText, hfailed, List.map_cons, toString, String.intercalate_cons_append,
    String.append_assoc, String.toList_append, List.head?_append] at hfirst
  have htask : "task '".toList.head? = some 't' := rfl
  have hnode : "node '".toList.head? = some 'n' := rfl
  rw [htask, hnode] at hfirst
  simp at hfirst

/-- A dag is stuck just when a step forward gives it up. -/
theorem stuck_iff : d.Stuck now ↔
    ∃ n, d.currentNode? = some n ∧ d.forward now = .ok (d.givingUp n now) := by
  constructor
  · rintro ⟨n, hn, hopen, hsound, hidle⟩
    refine ⟨n, hn, ?_⟩
    have hempty : (launchBatch n now).isEmpty = true := List.isEmpty_iff.mpr hidle
    rw [forward, current_eq_ok_iff.mpr hn]
    simp only [bind, Except.bind]
    rw [if_neg hopen, if_neg (by simpa using hsound)]
    exact if_pos hempty
  · rintro ⟨n, hn, hforward⟩
    generalize hmove : d.givingUp n now = move at hforward
    cases forward_cases hn hforward with
    | advance => simp [givingUp] at hmove
    | finish => simp [givingUp] at hmove
    | park failed =>
      simp only [givingUp, Move.mk.injEq, List.cons.injEq, EventType.dagFailed.injEq] at hmove
      exact absurd hmove.2.1.1.2.symm (failureText_ne failed n.name)
    | stuck sound left idle message =>
      refine ⟨n, hn, ?_, ?_, idle⟩
      · obtain ⟨t, ht, hopen⟩ := left
        exact fun hdone => hopen (Node.status_isDone_iff.mp hdone t ht)
      · intro hfailed
        obtain ⟨t, ht, hs⟩ := Node.status_eq_failed_iff.mp hfailed
        exact sound t ht hs
    | launch => simp [givingUp] at hmove

theorem Advancing.not_stuck (h : d.Advancing) : ¬ d.Stuck now := by
  rintro ⟨n, hn, hopen, hsound, hidle⟩
  refine h.launchBatch_ne_nil hn ?_ ?_ hidle
  · exact fun t ht hs => hsound (Node.status_eq_failed_iff.mpr ⟨t, ht, hs⟩)
  · by_contra hnone
    refine hopen (Node.status_isDone_iff.mpr fun t ht => ?_)
    by_contra hleft
    exact hnone ⟨t, ht, hleft⟩

/-! ## Refusals -/

/-- Where a task has failed at the stage of a parked dag, a command about its failed tasks is refused
for one that does not allow it, and for no other reason. -/
theorem failedTasksPermitting_refused (failed : d.status = .failed)
    (forward : d.operator ≠ .rollback) (node : d.currentNode? = some n)
    (broken : ∃ t ∈ n.tasks, t.status = .failed) {x : Fault}
    (h : d.failedTasksPermitting command = .error x) :
    ∃ t ∈ n.failedTasks, t.capabilities.permits command = false ∧
      x = .error (.notPermitted command t.name) := by
  have hstate : ¬ (!d.isFailed || d.operator == .rollback) = true := by
    simp [isFailed, failed, forward]
  obtain ⟨t, ht, hs⟩ := broken
  have hnonempty : ¬ n.failedTasks.isEmpty = true := by
    rw [List.isEmpty_iff]
    exact List.ne_nil_of_mem (List.mem_filter.mpr ⟨ht, by simp [hs]⟩)
  simp only [failedTasksPermitting, if_neg hstate] at h
  rw [current_eq_ok_iff.mpr node] at h
  rcases bind_error h with h | ⟨m, hm, h⟩
  · cases h
  · obtain rfl := Except.ok.inj hm
    rw [if_neg hnonempty] at h
    rcases bind_error h with h | ⟨u, -, h⟩
    · exact demand_cases h
    · cases h

end Dag

namespace Course

variable {s : Course}

/-- Every record that says that a dag has failed on its way forward has a failed task at its stage
and no running one, so that a retry or a pass is refused only for a failed task that does not allow
it. And no record of a dag that goes forward is stuck. -/
theorem parked_goes_on (h : s.Lived) {author : Author} {d : Dag}
    (hd : .wrote author d ∈ s.history) (forward : d.operator ≠ .rollback) :
    (d.status = .failed →
      ∃ n, d.currentNode? = some n ∧ (∃ t ∈ n.tasks, t.status = .failed) ∧
        (∀ t ∈ d.tasks, t.status ≠ .running) ∧
        ∀ command, command = .retry ∨ command = .pass → ∀ now x,
          d.command command now = .error x →
            ∃ t ∈ n.failedTasks, t.capabilities.permits command = false ∧
              x = .error (.notPermitted command t.name)) ∧
      (d.status = .running → ∀ now, ¬ d.Stuck now) := by
  have hsound := h.sound_of_wrote hd
  constructor
  · intro failed
    have hadvancing := hsound.advancing_of_ne_rollback forward (by simp [failed])
    obtain ⟨⟨i, t, ht, hi, hs⟩, hnone⟩ := hadvancing.parked failed
    obtain ⟨n, hn⟩ := hsound.shaped.currentNode
    have hbroken : ∃ t ∈ n.tasks, t.status = .failed :=
      ⟨t, (Dag.mem_currentNode_iff hn).mpr ⟨i, hi, ht⟩, hs⟩
    refine ⟨n, hn, hbroken, fun u hu => ?_, fun command mends now x hrefused => ?_⟩
    · obtain ⟨j, hj⟩ := Dag.mem_tasks_iff.mp hu
      exact hnone j u hj
    · exact Dag.failedTasksPermitting_refused failed forward hn hbroken
        (Dag.command_refused_by_tasks mends hrefused)
  · intro running now
    exact (hsound.advancing_of_ne_rollback forward (by simp [running])).not_stuck

end Course

namespace Sample

/-! ## A dag that is parked for good -/

/-- Two operations that may go on after a restart or not, and allow nothing else. -/
def sternRegistry : Registry :=
  .ofSorted [operation "brittle" .none, operation "steady" .standard] (by decide)

def sternDag : Dag :=
  match spec.build sternRegistry ids dawn with
  | .ok d => d
  | .error _ => default

/-- The process stops while the first stage is out, and one of its tasks cannot go on. -/
def parking : List Happening :=
  [.proceed dawn dawn, .send, .send, .halt, .find, .recover sternRegistry dawn,
   .recover sternRegistry dawn, .resume, .proceed dawn dawn]

def stranded : Course := ((Course.start sternDag).play? parking).getD (Course.start sternDag)

theorem lived_stranded : stranded.Lived := by
  have built : spec.build sternRegistry ids dawn = .ok sternDag := rfl
  have hstart : (Course.start sternDag).Lived := .submitted fresh built
  have hplay : (Course.start sternDag).play? parking = some stranded := rfl
  exact hstart.play hplay

end Sample

namespace Course

/-- The dag is parked, and a retry is refused for the task that could not go on. -/
theorem parked_goes_on_stern :
    Sample.stranded.Lived ∧ .wrote .step Sample.stranded.record ∈ Sample.stranded.history ∧
      Sample.stranded.record.status = .failed ∧
      ∃ t ∈ Sample.stranded.record.tasks, t.status = .failed ∧
        Sample.stranded.record.command .retry Sample.dawn
          = .error (.error (.notPermitted .retry t.name)) := by
  have hd : .wrote .step Sample.stranded.record ∈ Sample.stranded.history := List.mem_cons_self
  have hfailed : Sample.stranded.record.status = .failed := rfl
  obtain ⟨x, hrefused⟩ : ∃ x, Sample.stranded.record.command .retry Sample.dawn = .error x :=
    ⟨_, rfl⟩
  have hforward : Sample.stranded.record.operator ≠ .rollback := by decide
  obtain ⟨n, hn, -, -, hmends⟩ := (parked_goes_on Sample.lived_stranded hd hforward).1 hfailed
  obtain ⟨t, ht, -, rfl⟩ := hmends .retry (.inl rfl) Sample.dawn x hrefused
  obtain ⟨i, hat, -, hs⟩ := (Dag.mem_failedTasks_iff hn).mp ht
  exact ⟨Sample.lived_stranded, hd, hfailed, t, hat.mem_tasks, hs, hrefused⟩

end Course

end Stagewise
