import Stagewise.Proofs.Course.Basic
import Stagewise.Proofs.Dag.Commands
/-!
# Courses stay sound

In every course of a dag the stored record is sound, and the drive loop stands as the record says: a
stage is out only while its tasks are due, a loop that is about to step finds no task running beside
a failed one, and recovery has just the running tasks left to see to, or those that a cancellation
stopped under its hands.
-/

namespace Stagewise

/-- The statuses of the tasks that a direction sends out. -/
def Action.due : Action → TaskStatus → Bool
  | .execute, status => status == .running
  | .rollback, status => status.isExecuted

/-- The stage of a running dag that is out. -/
structure Dag.SentOut (d : Dag) (b : Barrier) : Prop where
  running : d.status = .running
  direction : d.direction = b.action
  stage : d.stage = b.stage
  batch : ∃ n, d.currentNode? = some n ∧
    b.sent ++ b.rest = (Dag.batchOf n fun t => b.action.due t.status).requests d.id b.action
  underWay : b.action = .execute → ∀ i t, d.TaskAt i t → i + 1 = d.stage → t.status = .running ∨
    t.status = .succeeded

/-- The tasks that recovery has left to see to are those that run. -/
structure Dag.Interrupted (d : Dag) (left : List Task) : Prop where
  running : d.status = .running
  nodup : (left.map (·.id)).Nodup
  present : ∀ t ∈ left, ∃ i u, d.TaskAt i u ∧ u.id = t.id
  mem_iff : ∀ i t, d.TaskAt i t → (t.id ∈ left.map (·.id) ↔ t.status = .running)

/-- The dag was cancelled before recovery had seen to these tasks. -/
structure Dag.Abandoned (d : Dag) (left : List Task) : Prop where
  stopped : d.Stopped
  nodup : (left.map (·.id)).Nodup
  failed : ∀ t ∈ left, d.Shows t.id .failed

/-- The stage that a step forward sends out. -/
def Dag.execution (d : Dag) (n : Node) (now : Timestamp) : Barrier :=
  ⟨.execute, d.stage, [], (launchBatch n now).requests d.id .execute⟩

/-- The stage that a step of a rollback sends out. -/
def Dag.compensation (d : Dag) (n : Node) : Barrier :=
  ⟨.rollback, d.stage, [], (unwindBatch n).requests d.id .rollback⟩

/-- The loop stands as the record says. -/
def Standing.Suits (d : Dag) : Standing → Prop
  | .idle => True
  | .recovering left => d.Abandoned left ∨ d.Interrupted left
  | .ready => d.status = .running → d.Steady
  | .barrier b => d.Stopped ∨ d.SentOut b

/-- What holds at every moment of a course. -/
structure Course.Held (s : Course) : Prop where
  sound : s.record.Sound
  suits : s.loop.Suits s.record

namespace Dag

theorem direction_eq_rollback_iff {d : Dag} : d.direction = .rollback ↔ d.operator = .rollback := by
  simp [direction]

theorem direction_eq_execute_iff {d : Dag} : d.direction = .execute ↔ d.operator ≠ .rollback := by
  simp [direction]

theorem Advancing.forward_of_step {d : Dag} (h : d.Advancing) {n : Node}
    (hn : d.currentNode? = some n) {now : Timestamp} {move : Move} (hstep : d.step now = .ok move) :
    d.Forward n now move := by
  rw [step, direction_eq_execute_iff.mpr h.operator] at hstep
  exact forward_cases hn hstep

theorem Unwinding.unwind_of_step {d : Dag} (h : d.Unwinding) {n : Node}
    (hn : d.currentNode? = some n) {now : Timestamp} {move : Move} (hstep : d.step now = .ok move) :
    d.Unwind n move := by
  rw [step, direction_eq_rollback_iff.mpr h.operator] at hstep
  exact unwind_cases hn hstep

theorem Stopped.raised {d : Dag} (h : d.Stopped) (now : Timestamp) : (d.raised now).Stopped :=
  ⟨h.operator, h.status⟩

theorem SentOut.raised {d : Dag} {b : Barrier} (h : d.SentOut b) (now : Timestamp) :
    (d.raised now).SentOut b :=
  ⟨h.running, h.direction, h.stage, h.batch, h.underWay⟩

theorem Interrupted.raised {d : Dag} {left : List Task} (h : d.Interrupted left) (now : Timestamp) :
    (d.raised now).Interrupted left := ⟨h.running, h.nodup, h.present, h.mem_iff⟩

theorem Abandoned.raised {d : Dag} {left : List Task} (h : d.Abandoned left) (now : Timestamp) :
    (d.raised now).Abandoned left := ⟨h.stopped.raised now, h.nodup, h.failed⟩

/-- A task that is due is sent to the agent that does its work. -/
theorem mem_requests_batchOf {n : Node} {due : Task → Bool} {t : Task} (ht : t ∈ n.tasks)
    (hdue : due t = true) (dag : DagId) (action : Action) :
    (t.agent, ⟨dag, t, action⟩) ∈ (batchOf n due).requests dag action :=
  Batch.mem_requests_iff.mpr
    ⟨_, mem_batchOf_iff.mpr ⟨ht, hdue, rfl⟩, n.agent_mem_targets t, rfl, rfl⟩

/-- A request is out for just those tasks of the node at work that are due. -/
theorem SentOut.mem_ids_iff {d : Dag} {b : Barrier} (h : d.SentOut b) (hdistinct : d.Distinct)
    {i : Nat} {t : Task} (ht : d.TaskAt i t) :
    (∃ p ∈ b.sent ++ b.rest, p.2.task.id = t.id) ↔ i + 1 = d.stage ∧ b.action.due t.status := by
  obtain ⟨n, hn, hrequests⟩ := h.batch
  rw [hrequests]
  constructor
  · rintro ⟨⟨a, q⟩, hq, hid⟩
    obtain ⟨targets, hbatch, -⟩ := Batch.mem_requests_iff.mp hq
    obtain ⟨hmem, hdue, -⟩ := mem_batchOf_iff.mp hbatch
    obtain ⟨j, hj, hq'⟩ := (mem_currentNode_iff hn).mp hmem
    obtain ⟨rfl, heq⟩ := hdistinct.unique hq' ht hid
    exact ⟨hj, heq ▸ hdue⟩
  · rintro ⟨hi, hdue⟩
    have hmem := (mem_currentNode_iff hn).mpr ⟨i, hi, ht⟩
    exact ⟨_, mem_requests_batchOf hmem hdue d.id b.action, rfl⟩

theorem currentNode?_launched {d : Dag} {n : Node} (hn : d.currentNode? = some n)
    (now : Timestamp) :
    (d.modifyCurrent fun _ => launched n now).currentNode? = some (launched n now) := by
  obtain ⟨hpos, hget⟩ := currentNode?_eq_some_iff.mp hn
  have hne : d.stage ≠ 0 := Nat.ne_of_gt hpos
  refine currentNode?_eq_some_iff.mpr ⟨hpos, ?_⟩
  simp [modifyCurrent, hne, hget]

theorem Advancing.sentOut_launch {d : Dag} {n : Node} (h : d.Advancing)
    (hn : d.currentNode? = some n) (running : d.status = .running)
    (sound : ∀ t ∈ n.tasks, t.status ≠ .failed) (now : Timestamp) :
    (d.modifyCurrent fun _ => launched n now).SentOut (d.execution n now) := by
  constructor
  case running => exact running
  case direction => exact direction_eq_execute_iff.mpr h.operator
  case stage => rfl
  case batch => exact ⟨_, currentNode?_launched hn now, rfl⟩
  case underWay =>
    rintro - i t ht hi
    rw [launched_eq_mapAt hn] at ht
    obtain ⟨u, hu, rfl⟩ := taskAt_mapAt.mp ht
    have hhere : i + 1 = d.stage := hi
    have hsound := sound u ((mem_currentNode_iff hn).mpr ⟨i, hhere, hu⟩)
    rw [if_pos hhere, markRunning_status]
    rcases h.status_cases hu with hs | hs | hs | hs
    · simp [hs, TaskStatus.isTerminal]
    · simp [hs, TaskStatus.isTerminal]
    · simp [hs]
    · exact absurd hs hsound

theorem Unwinding.sentOut {d : Dag} {n : Node} (h : d.Unwinding) (hn : d.currentNode? = some n)
    (running : d.status = .running) :
    d.SentOut (d.compensation n) where
  running := running
  direction := direction_eq_rollback_iff.mpr h.operator
  stage := rfl
  batch := ⟨n, hn, rfl⟩
  underWay := fun hexecute => by simp [compensation] at hexecute

theorem Unwinding.steady {d : Dag} (h : d.Unwinding) : d.Steady :=
  steady_of_no_running fun _ _ ht => h.not_running ht

theorem Shaped.settle {d : Dag} (h : d.Shaped) (reports : List Report) (action : Action)
    (now : Timestamp) :
    (d.settle reports action now).dag.Shaped := by
  have hreported : (d.reported reports action now).Shaped := h.mapTasks fun t => by split <;> simp
  cases action with
  | execute =>
    rw [settle_execute h.distinct]
    exact hreported
  | rollback =>
    rw [settle_rollback h.distinct]
    split
    · exact hreported.withStatus .failed
    · exact hreported

theorem Shaped.modifyTasks {d : Dag} (h : d.Shaped) {n : Node} (hn : d.currentNode? = some n)
    {f : Task → Task} (hf : ∀ t, (f t).id = t.id) :
    (d.modifyTasks (n.failedTasks.map (·.id)) f).Shaped := by
  rw [modifyTasks_failedTasks h.distinct hn hf]
  exact h.mapTasks fun t => by split <;> simp [hf]

theorem Shaped.modifyTask {d : Dag} (h : d.Shaped) (id : TaskId) {f : Task → Task}
    (hf : ∀ t, (f t).id = t.id) :
    (d.modifyTask id f).Shaped := by
  rw [modifyTask_eq_mapTasks h.distinct]
  exact h.mapTasks fun t => by split <;> simp [hf]

theorem stopped_identity (now : Timestamp) (t : Task) : (stopped now t).identity = t.identity := by
  rw [stopped]
  split <;> rfl

theorem SentOut.steady {d : Dag} {b : Barrier} (h : d.SentOut b) (hsound : d.Sound) : d.Steady := by
  rcases hsound.regime with hr | hr | hr
  · refine steady_of_no_failed fun i t ht hs => ?_
    have hexecute : b.action = .execute := h.direction ▸ direction_eq_execute_iff.mpr hr.operator
    rcases h.underWay hexecute i t ht (hr.here_of_failed ht hs) with hs' | hs' <;> simp [hs'] at hs
  · exact hr.steady
  · exact absurd hr.status (by simp [h.running])

theorem taskAt_modifyTask {d : Dag} (h : d.Distinct) {id : TaskId} {f : Task → Task} {i : Nat}
    {t : Task} :
    (d.modifyTask id f).TaskAt i t ↔ ∃ u, d.TaskAt i u ∧ (if u.id = id then f u else u) = t := by
  rw [modifyTask_eq_mapTasks h, mapTasks_eq_mapAt, taskAt_mapAt]

theorem Interrupted.recovered {d : Dag} {t : Task} {left : List Task}
    (h : d.Interrupted (t :: left)) (hdistinct : d.Distinct) {status : TaskStatus}
    (hstatus : status = .pending ∨ status = .failed) (now : Timestamp) :
    (d.modifyTask t.id (Store.withStatus status now)).Interrupted left := by
  obtain ⟨hnew, hnodup⟩ := List.nodup_cons.mp h.nodup
  constructor
  case running => exact h.running
  case nodup => exact hnodup
  case present =>
    intro u hu
    obtain ⟨i, w, hw, hid⟩ := h.present u (List.mem_cons_of_mem _ hu)
    refine ⟨i, _, (taskAt_modifyTask hdistinct).mpr ⟨w, hw, rfl⟩, ?_⟩
    split <;> exact hid
  case mem_iff =>
    intro i u hu
    obtain ⟨w, hw, rfl⟩ := (taskAt_modifyTask hdistinct).mp hu
    by_cases hid : w.id = t.id
    · rw [if_pos hid]
      refine iff_of_false (fun hmem => hnew ?_) ?_
      · have hmem' : w.id ∈ left.map (·.id) := hmem
        rwa [hid] at hmem'
      · rcases hstatus with hs | hs <;> simp [Store.withStatus, hs]
    · rw [if_neg hid, ← h.mem_iff i w hw, List.map_cons, List.mem_cons]
      exact (or_iff_right hid).symm

theorem Abandoned.recovered {d : Dag} {t : Task} {left : List Task} (h : d.Abandoned (t :: left))
    (hdistinct : d.Distinct) (status : TaskStatus) (now : Timestamp) :
    (d.modifyTask t.id (Store.withStatus status now)).Abandoned left := by
  obtain ⟨hnew, hnodup⟩ := List.nodup_cons.mp h.nodup
  refine ⟨⟨h.stopped.operator, h.stopped.status⟩, hnodup, fun u hu => ?_⟩
  obtain ⟨i, w, hw, hid, hs⟩ := h.failed u (List.mem_cons_of_mem _ hu)
  have hother : w.id ≠ t.id := fun hsame => hnew (List.mem_map.mpr ⟨u, hu, hid.symm.trans hsame⟩)
  exact ⟨i, w, (taskAt_modifyTask hdistinct).mpr ⟨w, hw, if_neg hother⟩, hid, hs⟩

end Dag

theorem Standing.Suits.cancel {d : Dag} {loop : Standing} (h : loop.Suits d)
    (unfinished : d.status = .running ∨ d.status = .failed) (now : Timestamp) :
    loop.Suits { d.mapTasks (Dag.stopped now) with status := .cancelled, operator := .cancel } := by
  cases loop with
  | idle => trivial
  | ready => exact fun hs => by simp at hs
  | barrier b => exact .inl ⟨rfl, rfl⟩
  | recovering left =>
    refine .inl ?_
    rcases h with habandoned | hleft
    · simp [habandoned.stopped.status] at unfinished
    refine ⟨⟨rfl, rfl⟩, hleft.nodup, fun t ht => ?_⟩
    obtain ⟨i, u, hu, hid⟩ := hleft.present t ht
    have hrunning : u.status = .running := (hleft.mem_iff i u hu).mp (hid ▸ List.mem_map_of_mem ht)
    rw [Dag.mapTasks_eq_mapAt]
    refine ⟨i, _, Dag.taskAt_mapAt.mpr ⟨u, hu, rfl⟩, ?_, ?_⟩
    · simp [Dag.stopped, hrunning, hid]
    · simp [Dag.stopped, hrunning]

namespace Course

variable {s : Course}

theorem Held.start {d : Dag} (h : d.Sound) (hsteady : d.Steady) : (start d).Held :=
  ⟨h, fun _ => hsteady⟩

theorem Held.steady (h : s.Held) (ready : s.loop = .ready) (running : s.record.status = .running) :
    s.record.Steady := by
  have hsuits := h.suits
  rw [ready] at hsuits
  exact hsuits running

/-- A stage that is out is that of the record, or the dag has been cancelled since. -/
theorem Held.out (h : s.Held) {b : Barrier} (hb : s.loop = .barrier b) :
    s.record.Stopped ∨ s.record.SentOut b := by
  have hsuits := h.suits
  rwa [hb] at hsuits

theorem Held.sentOut (h : s.Held) {b : Barrier} (hb : s.loop = .barrier b)
    (hs : s.record.status ≠ .cancelled) :
    s.record.SentOut b :=
  (h.out hb).resolve_left fun hstopped => hs hstopped.status

/-- What recovery has left to see to is what runs, or the dag has been cancelled since. -/
theorem Held.left (h : s.Held) {left : List Task} (hleft : s.loop = .recovering left) :
    s.record.Abandoned left ∨ s.record.Interrupted left := by
  have hsuits := h.suits
  rwa [hleft] at hsuits

theorem Held.interrupted (h : s.Held) {left : List Task} (hleft : s.loop = .recovering left)
    (hs : s.record.status ≠ .cancelled) : s.record.Interrupted left :=
  (h.left hleft).resolve_left fun habandoned => hs habandoned.stopped.status

theorem Held.write {author : Author} {record : Dag} (h : record.Sound) {loop : Standing}
    (hsuits : loop.Suits record) (now : Timestamp) : (s.write author record now loop).Held where
  sound := h.raised now
  suits := by
    cases loop with
    | idle => trivial
    | recovering left => exact hsuits.imp (·.raised now) (·.raised now)
    | ready => exact hsuits
    | barrier b => exact hsuits.imp (·.raised now) (·.raised now)

theorem Held.write_ready {author : Author} {record : Dag} (h : record.Sound)
    (hsteady : record.Steady) (now : Timestamp) : (s.write author record now .ready).Held :=
  Held.write h (show Standing.Suits record .ready from fun _ => hsteady) now

theorem Held.write_end {author : Author} {record : Dag} (h : record.Sound)
    (hend : record.status ≠ .running) (now : Timestamp) : (s.write author record now .ready).Held :=
  Held.write h (show Standing.Suits record .ready from fun hs => absurd hs hend) now

/-- While the record is failed, no stage is out and recovery is not at work. -/
theorem Held.wake_of_failed (h : s.Held) (failed : s.record.status = .failed) :
    s.loop.wake = .ready := by
  have hstatus : s.record.status ≠ .cancelled := by simp [failed]
  cases hloop : s.loop with
  | idle => rfl
  | ready => rfl
  | recovering left =>
    have hrunning := (h.interrupted hloop hstatus).running
    simp [failed] at hrunning
  | barrier b =>
    have hrunning := (h.sentOut hloop hstatus).running
    simp [failed] at hrunning

theorem proceed_launch (h : s.record.Advancing) (n : Node) (now later : Timestamp)
    (events : List EventType) :
    s.proceed ⟨some (s.record.modifyCurrent fun _ => Dag.launched n now), events,
      some (Dag.launchBatch n now)⟩ later
      = s.write .step (s.record.modifyCurrent fun _ => Dag.launched n now) later
          (.barrier (s.record.execution n now)) := by
  have hdirection : s.record.direction = .execute := Dag.direction_eq_execute_iff.mpr h.operator
  change s.write .step (s.record.modifyCurrent fun _ => Dag.launched n now) later
    (.barrier ⟨s.record.direction, s.record.stage, [],
      (Dag.launchBatch n now).requests s.record.id s.record.direction⟩) = _
  rw [hdirection]
  rfl

theorem proceed_compensate (h : s.record.Unwinding) (n : Node) (later : Timestamp) :
    s.proceed ⟨none, [], some (Dag.unwindBatch n)⟩ later
      = { s with loop := .barrier (s.record.compensation n) } := by
  have hdirection : s.record.direction = .rollback := Dag.direction_eq_rollback_iff.mpr h.operator
  simp only [Course.proceed, standingAfter, hdirection, Dag.compensation]

theorem Held.proceed_forward (h : s.Held) (ready : s.loop = .ready) (hr : s.record.Advancing)
    (running : s.record.status = .running) {n : Node} (hn : s.record.currentNode? = some n)
    {now : Timestamp} {move : Move} (hmove : s.record.Forward n now move) (later : Timestamp) :
    (s.proceed move later).Held := by
  have hshape := h.sound.shaped
  cases hmove with
  | advance done more =>
    have hadvanced := hr.advance hn running done
    exact Held.write_ready ⟨hshape.withStage (Nat.succ_pos _) more, .inl hadvanced⟩
      (hr.steady_advance hn done) later
  | finish done last =>
    exact Held.write_end ⟨hshape.withStatus .succeeded, .inl (hr.finish hshape hn done last)⟩
      (by simp) later
  | park failed =>
    have hparked := hr.park (h.steady ready running) hn failed
    exact Held.write_end ⟨hshape.withStatus .failed, .inl hparked⟩ (by simp) later
  -- The loop never finds a stage with nothing to send out: a task that is not done waits or runs.
  | stuck sound left idle message => exact absurd idle (hr.launchBatch_ne_nil hn sound left)
  | launch sound left busy =>
    have hlaunched := hr.launch hn running now
    have hshaped : (s.record.modifyCurrent fun _ => Dag.launched n now).Shaped := by
      rw [Dag.launched_eq_mapAt hn]
      exact hshape.mapAt fun i t => by split <;> simp
    rw [proceed_launch hr]
    refine Held.write ⟨hshaped, .inl hlaunched⟩ ?_ later
    exact .inr (hr.sentOut_launch hn running sound now)

theorem Held.proceed_unwind (h : s.Held) (hr : s.record.Unwinding)
    (running : s.record.status = .running) {n : Node} (hn : s.record.currentNode? = some n)
    {move : Move} (hmove : s.record.Unwind n move) (later : Timestamp) :
    (s.proceed move later).Held := by
  have hshape := h.sound.shaped
  cases hmove with
  | compensate busy =>
    rw [proceed_compensate hr]
    exact ⟨h.sound, .inr (hr.sentOut hn running)⟩
  | stepBack idle more =>
    have hback := hr.stepBack hn running idle
    have hle : s.record.stage - 1 ≤ s.record.maxStage :=
      Nat.le_trans (Nat.sub_le ..) hshape.stage_le
    exact Held.write_ready ⟨hshape.withStage (by omega) hle, .inr (.inl hback)⟩ hback.steady later
  | finish idle last =>
    have hdone := hr.finish hshape hn idle last
    exact Held.write_end ⟨hshape.withStatus .failed, .inr (.inl hdone)⟩ (by simp) later

theorem Held.proceed (h : s.Held) (ready : s.loop = .ready) (running : s.record.status = .running)
    {now : Timestamp} {move : Move} (hstep : s.record.step now = .ok move) (later : Timestamp) :
    (s.proceed move later).Held := by
  obtain ⟨n, hn⟩ := h.sound.shaped.currentNode
  rcases h.sound.regime with hr | hr | hr
  · exact h.proceed_forward ready hr running hn (hr.forward_of_step hn hstep) later
  · exact h.proceed_unwind hr running hn (hr.unwind_of_step hn hstep) later
  · exact absurd hr.status (by simp [running])

theorem Held.fold (h : s.Held) {b : Barrier} (waiting : s.loop = .barrier b) {reports : List Report}
    (answered : b.Answered reports) (running : s.record.status = .running) (now later : Timestamp) :
    (s.write (.barrier b.action reports) (s.record.settle reports b.action now).dag later
      .ready).Held := by
  have hshape := h.sound.shaped
  have hsettled := hshape.settle reports b.action now
  have hout := h.sentOut waiting (by simp [running])
  have hreported {i : Nat} {t : Task} (ht : s.record.TaskAt i t) :
      (∃ r ∈ reports, r.task = t.id) ↔ i + 1 = s.record.stage ∧ b.action.due t.status :=
    answered.reported_iff.trans (hout.mem_ids_iff hshape.distinct ht)
  cases haction : b.action with
  | execute =>
    rw [haction] at hsettled hreported
    have hoperator := Dag.direction_eq_execute_iff.mp (hout.direction.trans haction)
    have hr := h.sound.advancing_of_ne_rollback hoperator (by simp [running])
    have hcover (i : Nat) (t : Task) (ht : s.record.TaskAt i t) :
        (∃ r ∈ reports, r.task = t.id) ↔ t.status = .running := by
      rw [hreported ht]
      simp only [Action.due, beq_iff_eq, and_iff_right_iff_imp]
      exact hr.here_of_running ht
    obtain ⟨hadvancing, hnone⟩ := hr.settle hshape.distinct running hcover now
    exact Held.write_ready ⟨hsettled, .inl hadvancing⟩ (Dag.steady_of_no_running hnone) later
  | rollback =>
    rw [haction] at hsettled hreported
    have hr :=
      h.sound.unwinding_of_rollback
        (Dag.direction_eq_rollback_iff.mp (hout.direction.trans haction))
    have hunwinding := hr.settle hshape.distinct running (fun i t ht => hreported ht) now
    exact Held.write_ready ⟨hsettled, .inr (.inl hunwinding)⟩ hunwinding.steady later

theorem Held.command (h : s.Held) {operator : Operator} {record : Dag} {lines : LogLines}
    {now : Timestamp} (hmade : s.record.Commanded now operator record lines) (later : Timestamp) :
    (s.write (.operator operator) record later
      (if operator = .cancel then s.loop else s.loop.wake)).Held := by
  have hshape := h.sound.shaped
  cases hmade with
  | retry failed forward node nonempty permitted =>
    have hr := h.sound.advancing_of_ne_rollback forward (by simp [failed])
    obtain ⟨hadvancing, hfresh⟩ :=
      hr.resume hshape.distinct failed node (f := Dag.again) (fun _ => rfl) (fun _ => .inl rfl)
        .retry (by simp)
    have hshaped := (hshape.modifyTasks node (f := Dag.again) fun _ => rfl).withStatus .running
    rw [if_neg (by simp), h.wake_of_failed failed]
    refine Held.write_ready ⟨hshaped.withOperator .retry, .inl hadvancing⟩ ?_ later
    exact Dag.steady_of_no_running fun i t ht => (hfresh i t ht).2
  | pass failed forward node nonempty permitted =>
    have hr := h.sound.advancing_of_ne_rollback forward (by simp [failed])
    let passed (t : Task) : Task := { t with status := .succeeded, finishedAt := some now }
    obtain ⟨hadvancing, hfresh⟩ :=
      hr.resume hshape.distinct failed node (f := passed) (fun _ => rfl) (fun _ => .inr rfl)
        .pass (by simp)
    have hshaped := (hshape.modifyTasks node (f := passed) fun _ => rfl).withStatus .running
    rw [if_neg (by simp), h.wake_of_failed failed]
    refine Held.write_ready ⟨hshaped.withOperator .pass, .inl hadvancing⟩ ?_ later
    exact Dag.steady_of_no_running fun i t ht => (hfresh i t ht).2
  | rollback failed reached permitted =>
    have hr := h.sound.rollback failed reached permitted
    rw [if_neg (by simp), h.wake_of_failed failed]
    exact Held.write_ready ⟨(hshape.withStatus .running).withOperator .rollback, .inr (.inl hr)⟩
      hr.steady later
  | cancel unfinished permitted =>
    have hshaped := hshape.mapTasks fun t => Task.id_eq_of_identity (Dag.stopped_identity now t)
    rw [if_pos rfl]
    exact Held.write ⟨(hshaped.withStatus .cancelled).withOperator .cancel, .inr (.inr ⟨rfl, rfl⟩)⟩
      (h.suits.cancel unfinished now) later

theorem Held.find (h : s.Held) (running : s.record.status = .running) :
    s.record.Interrupted s.record.interrupted where
  running := running
  nodup := by
    have hsublist : s.record.interrupted.Sublist s.record.tasks := List.filter_sublist
    exact List.Nodup.sublist (hsublist.map _) h.sound.shaped.distinct
  present := by
    intro t ht
    obtain ⟨i, hi⟩ := Dag.mem_tasks_iff.mp (List.mem_of_mem_filter ht)
    exact ⟨i, t, hi, rfl⟩
  mem_iff := by
    intro i t ht
    simp only [Dag.interrupted, List.mem_map, List.mem_filter, beq_iff_eq]
    constructor
    · rintro ⟨u, ⟨hu, hs⟩, hid⟩
      obtain ⟨j, hj⟩ := Dag.mem_tasks_iff.mp hu
      obtain ⟨-, rfl⟩ := h.sound.shaped.distinct.unique hj ht hid
      exact hs
    · exact fun hs => ⟨t, ⟨ht.mem_tasks, hs⟩, rfl⟩

theorem Held.recover (h : s.Held) {t : Task} {left : List Task}
    (recovering : s.loop = .recovering (t :: left)) (registry : Registry) (now : Timestamp) :
    (s.write (.recovery t.id)
      (s.record.modifyTask t.id (Store.withStatus (registry.recovered t).1 now)) now
      (.recovering left)).Held := by
  have hdistinct := h.sound.shaped.distinct
  have hshaped :=
    h.sound.shaped.modifyTask t.id (f := Store.withStatus (registry.recovered t).1 now) fun _ => rfl
  rcases h.left recovering with habandoned | hleft
  · refine Held.write
      ⟨hshaped, .inr (.inr ⟨habandoned.stopped.operator, habandoned.stopped.status⟩)⟩ ?_ now
    exact .inl (habandoned.recovered hdistinct _ now)
  -- Where a task runs, the dag is neither rolled back nor cancelled.
  · obtain ⟨i, u, hu, hid⟩ := hleft.present t (List.mem_cons_self ..)
    have hrunning : u.status = .running := (hleft.mem_iff i u hu).mp (by simp [hid])
    have hr : s.record.Advancing := by
      rcases h.sound.regime with hr | hr | hr
      · exact hr
      · exact absurd hrunning (hr.not_running hu)
      · exact absurd hr.status (by simp [hleft.running])
    have hstatus := Dag.recovered_status registry t
    have hadvancing := hr.recovered hdistinct hleft.running hu hrunning hstatus now
    rw [hid] at hadvancing
    refine Held.write ⟨hshaped, .inl hadvancing⟩ ?_ now
    exact .inr (hleft.recovered hdistinct hstatus now)

/-- Whatever happens to a dag, what held before holds afterwards. -/
theorem Held.step (h : s.Held) {s' : Course} (hstep : Step s s') : s'.Held := by
  cases hstep with
  | proceed now later ready running step =>
    exact h.proceed ready (Dag.isRunning_iff.mp running) step later
  | send sending next =>
    refine ⟨h.sound, (h.out sending).imp id fun hout => ?_⟩
    have hbatch := hout.batch
    rw [next] at hbatch
    exact ⟨hout.running, hout.direction, hout.stage, by simpa using hbatch, hout.underWay⟩
  | fold now later waiting answered running stage =>
    exact h.fold waiting answered (Dag.isRunning_iff.mp running) now later
  | reread waiting out =>
    refine ⟨h.sound, fun (running : s.record.status = .running) => ?_⟩
    exact (h.sentOut waiting (by simp [running])).steady h.sound
  | command now later accepted => exact h.command (Dag.command_cases accepted) later
  | halt => exact ⟨h.sound, trivial⟩
  | find idle running => exact ⟨h.sound, .inr (h.find (Dag.isRunning_iff.mp running))⟩
  | recover registry now recovering => exact h.recover recovering registry now
  | resume recovering =>
    refine ⟨h.sound, fun (running : s.record.status = .running) => ?_⟩
    have hleft := h.interrupted recovering (by simp [running])
    exact Dag.steady_of_no_running fun i t ht hs => by simpa using (hleft.mem_iff i t ht).mpr hs

/-- At every moment of its life, a dag is sound and its loop stands as its record says. -/
theorem Lived.held (h : s.Lived) : s.Held := by
  induction h with
  | submitted fresh built =>
    refine Held.start (DagSpec.build_sound fresh built) (Dag.steady_of_no_running fun i t ht => ?_)
    simp [DagSpec.build_pending built ht]
  | next _ hstep ih => exact ih.step hstep

end Course

end Stagewise
