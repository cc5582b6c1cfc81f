import Stagewise.Proofs.Course.Sound
import Stagewise.Proofs.Dag.Acceptance
/-!
# How many steps a dag still takes

A running dag needs at most two steps for each stage from its own one on, in the direction in which
it goes: one that sends the tasks of the node out and settles them, and one that leaves the node.
Every step brings it closer to its end, whatever has become of its tasks before and whatever is
reported about them.
-/

namespace Stagewise

/-- The statuses of the tasks that a direction has not settled. -/
def Action.unsettled : Action → TaskStatus → Bool
  | .execute, status => !status.isTerminal
  | .rollback, status => status.isExecuted

namespace Dag

/-- The stages that come after the present one. -/
def stagesLeft (d : Dag) : Nat :=
  match d.direction with
  | .execute => d.maxStage - d.stage
  | .rollback => d.stage - 1

/-- The node at work has unsettled tasks. -/
def isBusy (d : Dag) : Bool :=
  d.currentNode?.any fun n => n.tasks.any fun t => d.direction.unsettled t.status

/-- The steps that are enough for a running dag to end. -/
def stepsLeft (d : Dag) : Nat := 2 * d.stagesLeft + if d.isBusy then 2 else 1

/-- A dag on which a drive loop can work: its tasks are told apart, its stage is that of a node, and
it is not cancelled. -/
structure Driven (d : Dag) : Prop where
  distinct : d.Distinct
  staged : d.Staged
  uncancelled : d.status ≠ .cancelled

/-- Each unsettled task of the node at work is in one of the requests. -/
def Asked (d : Dag) (requests : List (Agent × DispatchRequest)) : Prop :=
  ∀ i t, d.TaskAt i t → i + 1 = d.stage → d.direction.unsettled t.status →
    ∃ p ∈ requests, p.2.task.id = t.id

/-- Each unsettled task of the node at work is reported. -/
def Answered (d : Dag) (reports : List Report) : Prop :=
  ∀ i t, d.TaskAt i t → i + 1 = d.stage → d.direction.unsettled t.status →
    ∃ r ∈ reports, r.task = t.id

variable {d : Dag} {n : Node} {now : Timestamp} {move : Move}

/-! ## Dags on which a drive loop can work -/

theorem Driven.mapAt (h : d.Driven) {g : Nat → Task → Task} (hg : ∀ i t, (g i t).id = t.id) :
    (d.mapAt g).Driven where
  distinct := h.distinct.mapAt hg
  staged := by
    refine ⟨h.staged.pos, h.staged.le, ?_⟩
    rw [Dag.mapAt, List.length_mapIdx]
    exact h.staged.whole
  uncancelled := h.uncancelled

theorem Driven.withStage (h : d.Driven) {stage : Nat} (hpos : 1 ≤ stage)
    (hle : stage ≤ d.maxStage) : { d with stage }.Driven :=
  ⟨h.distinct, ⟨hpos, hle, h.staged.whole⟩, h.uncancelled⟩

theorem Driven.withStatus (h : d.Driven) {status : DagStatus} (hs : status ≠ .cancelled) :
    { d with status }.Driven :=
  ⟨h.distinct, ⟨h.staged.pos, h.staged.le, h.staged.whole⟩, hs⟩

theorem Driven.raised (h : d.Driven) (later : Timestamp) : (d.raised later).Driven :=
  ⟨h.distinct, ⟨h.staged.pos, h.staged.le, h.staged.whole⟩, h.uncancelled⟩

theorem Driven.launch (h : d.Driven) (hn : d.currentNode? = some n) (now : Timestamp) :
    (d.modifyCurrent fun _ => launched n now).Driven := by
  rw [launched_eq_mapAt hn]
  apply h.mapAt
  intro i t
  split
  · exact markRunning_id now t
  · rfl

theorem Driven.ended (h : d.Driven) (ended : ¬ d.isRunning) :
    d.status = .succeeded ∨ d.status = .failed := by
  rw [isRunning_iff] at ended
  have huncancelled := h.uncancelled
  cases hs : d.status with
  | running => exact absurd hs ended
  | succeeded => exact .inl rfl
  | failed => exact .inr rfl
  | cancelled => exact absurd hs huncancelled

/-! ## Counting steps -/

theorem isBusy_iff : d.isBusy ↔
    ∃ i t, d.TaskAt i t ∧ i + 1 = d.stage ∧ d.direction.unsettled t.status := by
  cases hn : d.currentNode? with
  | none =>
    have hidle : d.isBusy = false := by rw [isBusy, hn, Option.any_none]
    refine iff_of_false (by simp [hidle]) ?_
    rintro ⟨i, t, ⟨n, hn', -⟩, hi, -⟩
    have hsome : d.currentNode? = some n :=
      currentNode?_eq_some_iff.mpr ⟨by omega, by rwa [← hi, Nat.add_sub_cancel]⟩
    rw [hn] at hsome
    cases hsome
  | some n =>
    rw [isBusy, hn, Option.any_some, List.any_eq_true]
    constructor
    · rintro ⟨t, ht, hunsettled⟩
      obtain ⟨i, hi, hat⟩ := (mem_currentNode_iff hn).mp ht
      exact ⟨i, t, hat, hi, hunsettled⟩
    · rintro ⟨i, t, hat, hi, hunsettled⟩
      exact ⟨t, (mem_currentNode_iff hn).mpr ⟨i, hi, hat⟩, hunsettled⟩

theorem stepsLeft_le (d : Dag) : d.stepsLeft ≤ 2 * d.stagesLeft + 2 := by
  rw [stepsLeft]
  split <;> omega

theorem lt_stepsLeft (d : Dag) : 2 * d.stagesLeft < d.stepsLeft := by
  rw [stepsLeft]
  split <;> omega

theorem stepsLeft_of_busy (h : d.isBusy) : d.stepsLeft = 2 * d.stagesLeft + 2 := by
  rw [stepsLeft, if_pos h]

theorem stepsLeft_of_idle (h : ¬ d.isBusy) : d.stepsLeft = 2 * d.stagesLeft + 1 := by
  rw [stepsLeft, if_neg h]

theorem stagesLeft_forward (h : d.operator ≠ .rollback) : d.stagesLeft = d.maxStage - d.stage := by
  rw [stagesLeft, direction_eq_execute_iff.mpr h]

theorem stagesLeft_backward (h : d.operator = .rollback) : d.stagesLeft = d.stage - 1 := by
  rw [stagesLeft, direction_eq_rollback_iff.mpr h]

theorem stepsLeft_lt_of_stagesLeft {d' : Dag} (h : d'.stagesLeft + 1 = d.stagesLeft) :
    d'.stepsLeft < d.stepsLeft := by
  have hle := d'.stepsLeft_le
  have hlt := d.lt_stepsLeft
  omega

/-! ## Steps -/

/-- A step brings a running dag closer to its end, or sends its unsettled tasks out. -/
inductive Onward (d : Dag) : Move → Prop where
  | nearer {record : Dag} {events : List EventType} (driven : record.Driven)
      (fewer : record.isRunning → record.stepsLeft < d.stepsLeft) :
      Onward d ⟨some record, events, none⟩
  | sendsOut {write : Option Dag} {events : List EventType} {batch : Batch}
      (driven : (write.getD d).Driven) (running : (write.getD d).isRunning)
      (enough : 2 * (write.getD d).stagesLeft + 2 ≤ d.stepsLeft)
      (asked : ∀ dag action, (write.getD d).Asked (batch.requests dag action)) :
      Onward d ⟨write, events, some batch⟩

theorem Onward.of_ended {record : Dag} {events : List EventType} (driven : record.Driven)
    (ended : record.status ≠ .running) : d.Onward ⟨some record, events, none⟩ :=
  .nearer driven fun hrunning => absurd (isRunning_iff.mp hrunning) ended

theorem running_of_unsettled {t : Task}
    (h : Action.execute.unsettled (markRunning now t).status = true) :
    (markRunning now t).status = .running := by
  rw [markRunning_status] at h ⊢
  generalize t.status = status at h
  cases status
  all_goals first | rfl | cases h

theorem unsettled_of_running {t : Task} (h : (markRunning now t).status = .running) :
    Action.execute.unsettled t.status = true := by
  rw [markRunning_status] at h
  generalize t.status = status at h
  cases status
  all_goals first | rfl | cases h

theorem asked_launched (hn : d.currentNode? = some n) (forward : d.operator ≠ .rollback)
    (now : Timestamp) (dag : DagId) (action : Action) :
    (d.modifyCurrent fun _ => launched n now).Asked
      ((launchBatch n now).requests dag action) := by
  intro i t ht hi hunsettled
  have hmem := (mem_currentNode_iff (currentNode?_launched hn now)).mpr ⟨i, hi, ht⟩
  have hexecute : (d.modifyCurrent fun _ => launched n now).direction = .execute :=
    direction_eq_execute_iff.mpr forward
  rw [hexecute] at hunsettled
  obtain ⟨u, -, rfl⟩ := List.mem_map.mp hmem
  exact ⟨_, mem_requests_batchOf hmem (by simp [running_of_unsettled hunsettled]) dag action, rfl⟩

theorem isBusy_of_launchBatch (hn : d.currentNode? = some n) (forward : d.operator ≠ .rollback)
    (busy : launchBatch n now ≠ []) : d.isBusy := by
  obtain ⟨⟨t, targets⟩, hbatch⟩ := List.exists_mem_of_ne_nil _ busy
  obtain ⟨hmem, hrunning, -⟩ := mem_batchOf_iff.mp hbatch
  obtain ⟨u, hu, rfl⟩ := List.mem_map.mp hmem
  obtain ⟨i, hi, hat⟩ := (mem_currentNode_iff hn).mp hu
  refine isBusy_iff.mpr ⟨i, u, hat, hi, ?_⟩
  rw [direction_eq_execute_iff.mpr forward]
  exact unsettled_of_running (beq_iff_eq.mp hrunning)

theorem isBusy_of_unwindBatch (hn : d.currentNode? = some n) (backward : d.operator = .rollback)
    (busy : unwindBatch n ≠ []) : d.isBusy := by
  obtain ⟨⟨t, targets⟩, hbatch⟩ := List.exists_mem_of_ne_nil _ busy
  obtain ⟨hmem, hexecuted, -⟩ := mem_batchOf_iff.mp hbatch
  obtain ⟨i, hi, hat⟩ := (mem_currentNode_iff hn).mp hmem
  refine isBusy_iff.mpr ⟨i, t, hat, hi, ?_⟩
  rw [direction_eq_rollback_iff.mpr backward]
  exact hexecuted

theorem Driven.onward_forward (h : d.Driven) (running : d.isRunning)
    (forward : d.operator ≠ .rollback) (hn : d.currentNode? = some n)
    (hmove : d.Forward n now move) : d.Onward move := by
  cases hmove with
  | advance done more =>
    refine .nearer (h.withStage (Nat.succ_pos _) more) fun _ => stepsLeft_lt_of_stagesLeft ?_
    have hleft : { d with stage := d.stage + 1 }.stagesLeft = d.maxStage - (d.stage + 1) :=
      stagesLeft_forward forward
    rw [hleft, stagesLeft_forward forward]
    omega
  | finish done last => exact .of_ended (h.withStatus nofun) nofun
  | park failed => exact .of_ended (h.withStatus nofun) nofun
  | stuck sound left idle message => exact .of_ended ((h.launch hn now).withStatus nofun) nofun
  | launch sound left busy =>
    refine .sendsOut (h.launch hn now) running ?_ (asked_launched hn forward now)
    have hbusy := stepsLeft_of_busy (isBusy_of_launchBatch hn forward busy)
    exact Nat.le_of_eq hbusy.symm

theorem Driven.onward_unwind (h : d.Driven) (running : d.isRunning)
    (backward : d.operator = .rollback) (hn : d.currentNode? = some n)
    (hmove : d.Unwind n move) : d.Onward move := by
  have hdirection := direction_eq_rollback_iff.mpr backward
  cases hmove with
  | compensate busy =>
    have hasked (dag : DagId) (action : Action) :
        d.Asked ((unwindBatch n).requests dag action) := by
      intro i t ht hi hunsettled
      rw [hdirection] at hunsettled
      have hmem := (mem_currentNode_iff hn).mpr ⟨i, hi, ht⟩
      exact ⟨_, mem_requests_batchOf hmem hunsettled dag action, rfl⟩
    have hbusy := stepsLeft_of_busy (isBusy_of_unwindBatch hn backward busy)
    exact .sendsOut h running (Nat.le_of_eq hbusy.symm) hasked
  | stepBack idle more =>
    have hle : d.stage - 1 ≤ d.maxStage := Nat.le_trans (Nat.sub_le ..) h.staged.le
    refine .nearer (h.withStage (Nat.le_sub_one_of_lt more) hle) fun _ =>
      stepsLeft_lt_of_stagesLeft ?_
    have hleft : { d with stage := d.stage - 1 }.stagesLeft = d.stage - 1 - 1 :=
      stagesLeft_backward backward
    rw [hleft, stagesLeft_backward backward]
    omega
  | finish idle last => exact .of_ended (h.withStatus nofun) nofun

theorem Driven.onward (h : d.Driven) (running : d.isRunning) (hstep : d.step now = .ok move) :
    d.Onward move := by
  obtain ⟨n, hn⟩ := h.staged.currentNode
  rw [step] at hstep
  cases hdirection : d.direction with
  | execute =>
    simp only [hdirection] at hstep
    have hforward := direction_eq_execute_iff.mp hdirection
    exact h.onward_forward running hforward hn (forward_cases hn hstep)
  | rollback =>
    simp only [hdirection] at hstep
    have hbackward := direction_eq_rollback_iff.mp hdirection
    exact h.onward_unwind running hbackward hn (unwind_cases hn hstep)

/-! ## Reports -/

theorem settled_of_reported {reports : List Report} {action : Action} (t : Task)
    (sound : action = .rollback → ¬ ∃ r ∈ reports, r.task = t.id ∧ r.fails) (now : Timestamp) :
    action.unsettled (t.folded reports action now).status = false := by
  rw [Task.folded_status]
  cases action with
  | execute => split <;> rfl
  | rollback =>
    rw [if_neg (sound rfl)]
    rfl

/-- Reports of all unsettled tasks leave nothing at the node, or end the dag. -/
theorem Driven.settle (h : d.Driven) {reports : List Report} (answered : d.Answered reports)
    (now : Timestamp) :
    (d.settle reports d.direction now).dag.Driven ∧
      ((d.settle reports d.direction now).dag.isRunning →
        (d.settle reports d.direction now).dag.stepsLeft < 2 * d.stagesLeft + 2) := by
  have hdriven : (d.reported reports d.direction now).Driven := by
    rw [reported, mapTasks_eq_mapAt]
    exact h.mapAt fun i t => by split <;> simp
  have hfewer (sound : d.direction = .rollback →
      ¬ ∃ t ∈ d.tasks, ∃ r ∈ reports, r.task = t.id ∧ r.fails) :
      (d.reported reports d.direction now).stepsLeft < 2 * d.stagesLeft + 2 := by
    have hidle : ¬ (d.reported reports d.direction now).isBusy := by
      rw [isBusy_iff, reported, mapTasks_eq_mapAt]
      rintro ⟨i, t, ht, hi, hunsettled⟩
      obtain ⟨u, hu, rfl⟩ := taskAt_mapAt.mp ht
      -- What is reported is settled by the reports, and everything else was settled before.
      have hdirection : (d.mapAt fun _ t => if ∃ r ∈ reports, r.task = t.id then
          t.folded reports d.direction now else t).direction = d.direction := rfl
      rw [hdirection] at hunsettled
      by_cases hreported : ∃ r ∈ reports, r.task = u.id
      · have hsound (hrollback : d.direction = .rollback) :
            ¬ ∃ r ∈ reports, r.task = u.id ∧ r.fails :=
          fun hfails => sound hrollback ⟨u, hu.mem_tasks, hfails⟩
        rw [if_pos hreported, settled_of_reported u hsound now] at hunsettled
        cases hunsettled
      · rw [if_neg hreported] at hunsettled
        exact hreported (answered i u hu hi hunsettled)
    have hsame : (d.reported reports d.direction now).stagesLeft = d.stagesLeft := rfl
    rw [stepsLeft_of_idle hidle, hsame]
    exact Nat.lt_succ_self _
  cases hdirection : d.direction with
  | execute =>
    rw [hdirection] at hdriven hfewer
    rw [settle_execute h.distinct]
    exact ⟨hdriven, fun _ => hfewer fun hother => by cases hother⟩
  | rollback =>
    rw [hdirection] at hdriven hfewer
    rw [settle_rollback h.distinct]
    split
    · refine ⟨hdriven.withStatus ?_, ?_⟩ <;>
        · intro hother
          cases hother
    · next hsound => exact ⟨hdriven, fun _ => hfewer fun _ => hsound⟩

end Dag

end Stagewise
