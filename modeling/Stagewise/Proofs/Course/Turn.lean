import Stagewise.Proofs.Course.Handling
/-!
# What is stored, one record after another

Between a record and the next one that is stored for a dag, the nodes and their tasks are the same;
the status of a task moves in one of a few ways, each of which belongs to one author. An author
stores a record only when the record before allows it. What later statements say about whole courses
rests on this and on how the history grows.
-/

namespace Stagewise

/-- The ways in which the status of a task may change, each by its author. -/
inductive Moved : Author → TaskId → TaskStatus → TaskStatus → Prop where
  | kept {author : Author} {id : TaskId} {status : TaskStatus} : Moved author id status status
  | launched {id : TaskId} : Moved .step id .pending .running
  | achieved {action : Action} {reports : List Report} {id : TaskId} {status : TaskStatus}
      (due : action.due status) (reported : ∃ r ∈ reports, r.task = id)
      (sound : ∀ r ∈ reports, r.task = id → ¬ r.fails) :
      Moved (.barrier action reports) id status action.success
  | missed {action : Action} {reports : List Report} {id : TaskId} {status : TaskStatus}
      (due : action.due status) (fails : ∃ r ∈ reports, r.task = id ∧ r.fails) :
      Moved (.barrier action reports) id status .failed
  | retried {id : TaskId} : Moved (.operator .retry) id .failed .pending
  | passed {id : TaskId} : Moved (.operator .pass) id .failed .succeeded
  | stopped {id : TaskId} : Moved (.operator .cancel) id .running .failed
  | skipped {id : TaskId} : Moved (.operator .cancel) id .pending .skipped
  | recovered {id : TaskId} {before after : TaskStatus}
      (interrupted : before = .running ∨ before = .failed)
      (back : after = .pending ∨ after = .failed) : Moved (.recovery id) id before after

/-- The author may store a record after this one. -/
def Author.May (d : Dag) : Author → Prop
  | .submission => False
  | .step => d.status = .running
  | .barrier action _ => d.status = .running ∧ d.direction = action
  | .operator .run => False
  | .operator .retry => d.status = .failed ∧ d.operator ≠ .rollback
  | .operator .pass => d.status = .failed ∧ d.operator ≠ .rollback
  | .operator .rollback => d.status = .failed
  | .operator .cancel => d.status = .running ∨ d.status = .failed
  | .recovery _ => d.operator ≠ .rollback

/-- The operator command that a record names when this author has stored it. -/
def Author.operatorAfter (operator : Operator) : Author → Operator
  | .operator command => command
  | _ => operator

/-- The second record is one that the author may store after the first. -/
structure Dag.Follows (d : Dag) (author : Author) (d' : Dag) : Prop where
  may : author.May d
  tasks : ∃ g : Nat → Task → Task, d'.nodes = (d.mapAt g).nodes ∧
    ∀ i t, d.TaskAt i t → (g i t).identity = t.identity ∧ Moved author t.id t.status (g i t).status
  operator : d'.operator = author.operatorAfter d.operator
  cancelled : d'.status = .cancelled ↔ d.status = .cancelled ∨ author = .operator .cancel
  stage_eq : author ≠ .step → d'.stage = d.stage
  stage_le : d.operator ≠ .rollback → d.stage ≤ d'.stage

/-- What goes on in a course when the author stores a record. -/
inductive Author.Origin (s : Course) (d : Dag) : Author → Prop where
  | step {now : Timestamp} {move : Move} {record : Dag} (later : Timestamp)
      (step : s.record.step now = .ok move) (write : move.write = some record)
      (stored : d = record.raised later) : Origin s d .step
  | barrier {b : Barrier} {action : Action} {reports : List Report}
      (waiting : s.loop = .barrier b) (direction : b.action = action)
      (answered : b.Answered reports) : Origin s d (.barrier action reports)
  | operator {command : Operator} {now : Timestamp} {record : Dag} {lines : LogLines}
      (later : Timestamp) (accepted : s.record.command command now = .ok (record, lines))
      (stored : d = record.raised later) :
      Origin s d (.operator command)
  | recovery {t : Task} {left : List Task} (recovering : s.loop = .recovering (t :: left)) :
      Origin s d (.recovery t.id)

/-- What a step of a course adds to its history. -/
inductive Course.Turn (s s' : Course) : Prop where
  | quiet (record : s'.record = s.record) (history : s'.history = s.history)
  | sent {b : Barrier} {agent : Agent} {request : DispatchRequest}
      {rest : List (Agent × DispatchRequest)} (sending : s.loop = .barrier b)
      (next : b.rest = (agent, request) :: rest) (record : s'.record = s.record)
      (history : s'.history = .sent agent request :: s.history)
  | wrote {author : Author} (origin : author.Origin s s'.record)
      (history : s'.history = .wrote author s'.record :: s.history)
      (follows : s.record.Follows author s'.record)

/-! ## Where a status may come from, and what it may become -/

theorem Moved.of_rolledBack {author : Author} {id : TaskId} {before after : TaskStatus}
    (h : Moved author id before after) (hs : before = .rolledBack) : after = .rolledBack := by
  cases h with
  | kept => exact hs
  | @achieved action _ _ _ due =>
    cases action <;> simp [hs, Action.due, TaskStatus.isExecuted] at due
  | @missed action _ _ _ due => cases action <;> simp [hs, Action.due, TaskStatus.isExecuted] at due
  | recovered interrupted => simp [hs] at interrupted
  | _ => cases hs

theorem Moved.of_succeeded {author : Author} {id : TaskId} {before after : TaskStatus}
    (h : Moved author id before after) (hs : before = .succeeded) :
    after = .succeeded ∨ ∃ reports, author = .barrier .rollback reports := by
  cases h with
  | kept => exact .inl hs
  | @achieved action reports _ _ due =>
    cases action with
    | execute => simp [hs, Action.due] at due
    | rollback => exact .inr ⟨reports, rfl⟩
  | @missed action reports _ _ due =>
    cases action with
    | execute => simp [hs, Action.due] at due
    | rollback => exact .inr ⟨reports, rfl⟩
  | recovered interrupted => simp [hs] at interrupted
  | _ => cases hs

/-- A task is rolled back by a rollback only, when none of the reports about it is a failure. -/
theorem Moved.to_rolledBack {author : Author} {id : TaskId} {before after : TaskStatus}
    (h : Moved author id before after) (hs : after = .rolledBack) :
    before = .rolledBack ∨ ∃ reports, author = .barrier .rollback reports ∧
      (∃ r ∈ reports, r.task = id) ∧ ∀ r ∈ reports, r.task = id → ¬ r.fails := by
  cases h with
  | kept => exact .inl hs
  | @achieved action reports _ _ due reported sound =>
    cases action with
    | execute => cases hs
    | rollback => exact .inr ⟨reports, rfl, reported, sound⟩
  | recovered interrupted back => simp [hs] at back
  | _ => cases hs

theorem Moved.to_pending {author : Author} {id : TaskId} {before after : TaskStatus}
    (h : Moved author id before after) (hs : after = .pending) :
    before = .pending ∨ author = .operator .retry ∨ author = .recovery id := by
  cases h with
  | kept => exact .inl hs
  | retried => exact .inr (.inl rfl)
  | recovered interrupted back => exact .inr (.inr rfl)
  | @achieved action => cases action <;> cases hs
  | _ => cases hs

theorem Moved.of_cancel {id : TaskId} {before after : TaskStatus}
    (h : Moved (.operator .cancel) id before after) :
    (before = .running ∧ after = .failed) ∨ (before = .pending ∧ after = .skipped) ∨
      after = before := by
  cases h with
  | kept => exact .inr (.inr rfl)
  | stopped => exact .inl ⟨rfl, rfl⟩
  | skipped => exact .inr (.inl ⟨rfl, rfl⟩)

/-- The status of a task moves as its author handles it. -/
theorem Handled.moved {author : Author} {t t' : Task} (h : Handled author t t') :
    Moved author t.id t.status t'.status := by
  cases h with
  | kept => exact .kept
  | launched now unended =>
    cases hs : t.status with
    | pending => exact .launched
    | running => exact .kept
    | _ => exact absurd (by rw [hs]; rfl) unended
  | @folded action reports _ now due reported =>
    rw [Task.folded_status]
    by_cases hfails : ∃ r ∈ reports, r.task = t.id ∧ r.fails
    · rw [if_pos hfails]
      exact .missed due hfails
    · rw [if_neg hfails]
      exact .achieved due reported fun r hr hid hf => hfails ⟨r, hr, hid, hf⟩
  | retried failed => exact failed ▸ .retried
  | passed now failed => exact failed ▸ .passed
  | stopped now running => exact running ▸ .stopped
  | skipped now pending => exact pending ▸ .skipped
  | recovered now interrupted back => exact .recovered interrupted back

namespace Dag

variable {d d' : Dag} {author : Author}

theorem Handles.moves (h : d.Handles author d') :
    ∃ g : Nat → Task → Task, d'.nodes = (d.mapAt g).nodes ∧ ∀ i t, d.TaskAt i t →
      (g i t).identity = t.identity ∧ Moved author t.id t.status (g i t).status := by
  obtain ⟨g, hnodes, hg⟩ := h
  exact ⟨g, hnodes, fun i t ht => ⟨(hg i t ht).identity, (hg i t ht).moved⟩⟩

theorem Follows.of_nodes_eq (running : d.status = .running) (hnodes : d'.nodes = d.nodes)
    (operator : d'.operator = d.operator) (hstatus : d'.status ≠ .cancelled)
    (stage_le : d.operator ≠ .rollback → d.stage ≤ d'.stage) : d.Follows .step d' where
  may := running
  tasks := by
    have hhandles : d.Handles .step d' := .of_nodes_eq hnodes fun _ => not_false
    exact hhandles.moves
  operator := operator
  cancelled := by simp [hstatus, running]
  stage_eq := fun hauthor => absurd rfl hauthor
  stage_le := stage_le

theorem Follows.of_stage_eq (may : author.May d) (handles : d.Handles author d')
    (operator : d'.operator = author.operatorAfter d.operator)
    (cancelled : d'.status = .cancelled ↔ d.status = .cancelled ∨ author = .operator .cancel)
    (hstage : d'.stage = d.stage) : d.Follows author d' :=
  ⟨may, handles.moves, operator, cancelled, fun _ => hstage, fun _ => Nat.le_of_eq hstage.symm⟩

theorem Follows.raised (h : d.Follows author d') (now : Timestamp) :
    d.Follows author (d'.raised now) :=
  ⟨h.may, h.tasks, h.operator, h.cancelled, h.stage_eq, h.stage_le⟩

theorem Follows.taskBefore (h : d.Follows author d') {i : Nat} {t' : Task} (ht' : d'.TaskAt i t') :
    ∃ t, d.TaskAt i t ∧ t'.identity = t.identity ∧ Moved author t.id t.status t'.status := by
  obtain ⟨g, hnodes, hg⟩ := h.tasks
  obtain ⟨t, ht, rfl⟩ := taskAt_mapAt.mp ((TaskAt.congr_nodes hnodes).mp ht')
  exact ⟨t, ht, hg i t ht⟩

theorem Follows.taskAfter (h : d.Follows author d') {i : Nat} {t : Task} (ht : d.TaskAt i t) :
    ∃ t', d'.TaskAt i t' ∧ t'.identity = t.identity ∧ Moved author t.id t.status t'.status := by
  obtain ⟨g, hnodes, hg⟩ := h.tasks
  exact ⟨g i t, (TaskAt.congr_nodes hnodes).mpr (taskAt_mapAt.mpr ⟨t, ht, rfl⟩), hg i t ht⟩

theorem Follows.nodeAfter (h : d.Follows author d') {i : Nat} {n : Node}
    (hn : d.nodes[i]? = some n) :
    ∃ n', d'.nodes[i]? = some n' ∧ n'.participants = n.participants ∧
      n'.tasks.map (·.id) = n.tasks.map (·.id) := by
  obtain ⟨g, hnodes, hg⟩ := h.tasks
  refine ⟨{ n with tasks := n.tasks.map (g i) }, ?_, rfl, ?_⟩
  · rw [hnodes, mapAt, List.getElem?_mapIdx, hn, Option.map_some]
  · rw [List.map_map]
    exact List.map_congr_left fun t ht => Task.id_eq_of_identity (hg i t ⟨n, hn, ht⟩).1

theorem Follows.shownBefore (h : d.Follows author d') {id : TaskId} {after : TaskStatus}
    (hs : d'.Shows id after) :
    ∃ before, d.Shows id before ∧ Moved author id before after := by
  obtain ⟨i, t', ht', rfl, rfl⟩ := hs
  obtain ⟨t, ht, hidentity, hmoved⟩ := h.taskBefore ht'
  have hid := Task.id_eq_of_identity hidentity
  exact ⟨t.status, ⟨i, t, ht, hid.symm, rfl⟩, hid ▸ hmoved⟩

theorem Follows.shownAfter (h : d.Follows author d') {id : TaskId} {before : TaskStatus}
    (hs : d.Shows id before) :
    ∃ after, d'.Shows id after ∧ Moved author id before after := by
  obtain ⟨i, t, ht, rfl, rfl⟩ := hs
  obtain ⟨t', ht', hidentity, hmoved⟩ := h.taskAfter ht
  exact ⟨t'.status, ⟨i, t', ht', Task.id_eq_of_identity hidentity, rfl⟩, hmoved⟩

/-! ## The authors, one by one -/

theorem Advancing.follows_step (h : d.Advancing) (running : d.status = .running) {n : Node}
    (hn : d.currentNode? = some n) {now : Timestamp} {move : Move} (hmove : d.Forward n now move) :
    ∃ record, move.write = some record ∧ d.Follows .step record := by
  cases hmove with
  | advance done more =>
    exact ⟨_, rfl, .of_nodes_eq running rfl rfl (by simp [running]) fun _ => Nat.le_succ _⟩
  | finish done last =>
    exact ⟨_, rfl, .of_nodes_eq running rfl rfl (by simp) fun _ => Nat.le_refl _⟩
  | park failed =>
    exact ⟨_, rfl, .of_nodes_eq running rfl rfl (by simp) fun _ => Nat.le_refl _⟩
  | stuck sound left idle message => exact absurd idle (h.launchBatch_ne_nil hn sound left)
  | launch sound left busy =>
    refine ⟨_, rfl, .of_stage_eq running (handles_launched hn now) rfl ?_ rfl⟩
    simp [modifyCurrent, running]

theorem Unwinding.follows_step (h : d.Unwinding) (running : d.status = .running) {n : Node}
    {move : Move} (hmove : d.Unwind n move) {record : Dag} (hwrite : move.write = some record) :
    d.Follows .step record := by
  have hback : d.operator ≠ .rollback → d.stage ≤ record.stage :=
    fun hforward => absurd h.operator hforward
  cases hmove with
  | compensate busy => cases hwrite
  | stepBack idle more =>
    obtain rfl := Option.some.inj hwrite
    exact .of_nodes_eq running rfl rfl (by simp [running]) hback
  | finish idle last =>
    obtain rfl := Option.some.inj hwrite
    exact .of_nodes_eq running rfl rfl (by simp) hback

theorem SentOut.follows_settle {b : Barrier} (h : d.SentOut b) (hdistinct : d.Distinct)
    {reports : List Report} (answered : b.Answered reports) (now : Timestamp) :
    d.Follows (.barrier b.action reports) (d.settle reports b.action now).dag := by
  obtain ⟨-, hoperator, hstage, hstatus⟩ := settle_frame hdistinct h.running reports b.action now
  exact .of_stage_eq ⟨h.running, h.direction⟩ (h.handles_settle hdistinct answered now) hoperator
    (by simp [hstatus, h.running]) hstage

theorem Commanded.follows (hsound : d.Sound) {operator : Operator} {record : Dag}
    {lines : LogLines} {now : Timestamp} (h : d.Commanded now operator record lines) :
    d.Follows (.operator operator) record := by
  have hhandles := h.handles hsound.shaped.distinct
  cases h with
  | retry failed forward =>
    exact .of_stage_eq ⟨failed, forward⟩ hhandles rfl (by simp [failed]) (d.stage_modifyTasks ..)
  | pass failed forward =>
    exact .of_stage_eq ⟨failed, forward⟩ hhandles rfl (by simp [failed]) (d.stage_modifyTasks ..)
  | rollback failed => exact .of_stage_eq failed hhandles rfl (by simp [failed]) rfl
  | cancel unfinished => exact .of_stage_eq unfinished hhandles rfl (by simp) rfl

theorem follows_recovered (hdistinct : d.Distinct) (hoperator : d.operator ≠ .rollback)
    {id : TaskId}
    (interrupted : ∀ i t, d.TaskAt i t → t.id = id → t.status = .running ∨ t.status = .failed)
    {status : TaskStatus} (back : status = .pending ∨ status = .failed) (now : Timestamp) :
    d.Follows (.recovery id) (d.modifyTask id (Store.withStatus status now)) :=
  .of_stage_eq hoperator (handles_recovered hdistinct interrupted back now) rfl
    (by simp [modifyTask]) rfl

/-- A dag that advances did so before: nothing leads back from a rollback or a cancellation. -/
theorem Follows.advancing (h : d.Follows author d') (hsound : d.Sound) (hadvancing : d'.Advancing) :
    d.Advancing ∧ author ≠ .operator .rollback := by
  have hcancelled := mt h.cancelled.mpr hadvancing.status
  rw [not_or] at hcancelled
  have hauthor : author ≠ .operator .rollback := by
    rintro rfl
    exact hadvancing.operator h.operator
  refine ⟨hsound.advancing_of_ne_rollback (fun hback => ?_) hcancelled.1, hauthor⟩
  have hmay := h.may
  have hoperator := h.operator ▸ hadvancing.operator
  rw [hback] at hoperator
  cases author with
  | submission => exact hmay
  | step => exact hoperator rfl
  | barrier action reports => exact hoperator rfl
  | recovery id => exact hmay hback
  | operator command =>
    cases command with
    | run => exact hmay
    | retry => exact hmay.2 hback
    | pass => exact hmay.2 hback
    | rollback => exact hauthor rfl
    | cancel => exact hcancelled.2 rfl

end Dag

namespace Course

variable {s s' : Course}

theorem Held.turn_proceed (h : s.Held) (running : s.record.status = .running) {now : Timestamp}
    {move : Move} (hstep : s.record.step now = .ok move) (later : Timestamp) :
    s.Turn (s.proceed move later) := by
  obtain ⟨n, hn⟩ := h.sound.shaped.currentNode
  have hwrite : ∀ record, move.write = some record → s.record.Follows .step record →
      s.Turn (s.proceed move later) := by
    intro record hrecord hfollows
    rw [Course.proceed, hrecord]
    exact .wrote (.step later hstep hrecord rfl) rfl (hfollows.raised later)
  rcases h.sound.regime with hr | hr | hr
  · obtain ⟨record, hrecord, hfollows⟩ := hr.follows_step running hn (hr.forward_of_step hn hstep)
    exact hwrite record hrecord hfollows
  · cases hrecord : move.write with
    | some record =>
      exact hwrite record hrecord (hr.follows_step running (hr.unwind_of_step hn hstep) hrecord)
    | none =>
      rw [Course.proceed, hrecord]
      exact .quiet rfl rfl
  · exact absurd hr.status (by simp [running])

/-- Recovery sees to tasks that were interrupted, or that a cancellation has failed since. -/
theorem Held.interrupted_task (h : s.Held) {t : Task} {left : List Task}
    (recovering : s.loop = .recovering (t :: left)) :
    s.record.operator ≠ .rollback ∧
      ∀ i u, s.record.TaskAt i u → u.id = t.id → u.status = .running ∨ u.status = .failed := by
  rcases h.left recovering with habandoned | hleft
  · refine ⟨by simp [habandoned.stopped.operator], fun i u hu hid => .inr ?_⟩
    have hfailed := habandoned.failed t (List.mem_cons_self ..)
    rw [← hid] at hfailed
    exact (h.sound.shaped.distinct.shows_iff hu).mp hfailed
  · have hrunning : ∀ i u, s.record.TaskAt i u → u.id = t.id → u.status = .running :=
      fun i u hu hid => (hleft.mem_iff i u hu).mp (by simp [hid])
    refine ⟨fun hback => ?_, fun i u hu hid => .inl (hrunning i u hu hid)⟩
    obtain ⟨i, u, hu, hid⟩ := hleft.present t (List.mem_cons_self ..)
    exact (h.sound.unwinding_of_rollback hback).not_running hu (hrunning i u hu hid)

/-- Every step of a course adds nothing to its history, a request of the stage that is out, or a
record that may follow. -/
theorem Held.turn (h : s.Held) (hstep : Step s s') : s.Turn s' := by
  have hdistinct := h.sound.shaped.distinct
  cases hstep with
  | proceed now later ready running step =>
    exact h.turn_proceed (Dag.isRunning_iff.mp running) step later
  | send sending next => exact .sent sending next rfl rfl
  | fold now later waiting answered running stage =>
    have hstatus : s.record.status ≠ .cancelled := by simp [Dag.isRunning_iff.mp running]
    have hfollows := (h.sentOut waiting hstatus).follows_settle hdistinct answered now
    exact .wrote (.barrier waiting rfl answered) rfl (hfollows.raised later)
  | reread waiting out => exact .quiet rfl rfl
  | command now later accepted =>
    have hfollows := (Dag.command_cases accepted).follows h.sound
    exact .wrote (.operator later accepted rfl) rfl (hfollows.raised later)
  | halt => exact .quiet rfl rfl
  | find idle running => exact .quiet rfl rfl
  | recover registry now recovering =>
    obtain ⟨hoperator, hinterrupted⟩ := h.interrupted_task recovering
    refine .wrote (.recovery recovering) rfl (Dag.Follows.raised ?_ now)
    exact Dag.follows_recovered hdistinct hoperator hinterrupted
      (Dag.recovered_status registry _) now
  | resume recovering => exact .quiet rfl rfl

/-- Whoever stores a record has handled the tasks of the one before. -/
theorem Held.handles (h : s.Held) (step : s.Step s') {author : Author}
    (wrote : s'.history = .wrote author s'.record :: s.history) :
    s.record.Handles author s'.record := by
  have hdistinct := h.sound.shaped.distinct
  have hgrows {o : Occurrence} : s.history ≠ o :: s.history := (List.cons_ne_self _ _).symm
  cases step with
  | @proceed move now later ready running hstep =>
    obtain ⟨n, hn⟩ := h.sound.shaped.currentNode
    cases hwrite : move.write with
    | none =>
      rw [Course.proceed, hwrite] at wrote
      exact absurd wrote hgrows
    | some record =>
      simp only [Course.proceed, hwrite] at wrote ⊢
      obtain ⟨rfl, -⟩ := Occurrence.wrote.inj (List.cons.inj wrote).1
      exact (Dag.handles_step hn hstep hwrite).raised later
  | fold now later waiting answered running stage =>
    obtain ⟨rfl, -⟩ := Occurrence.wrote.inj (List.cons.inj wrote).1
    have hstatus : s.record.status ≠ .cancelled := by simp [Dag.isRunning_iff.mp running]
    exact ((h.sentOut waiting hstatus).handles_settle hdistinct answered now).raised later
  | command now later accepted =>
    obtain ⟨rfl, -⟩ := Occurrence.wrote.inj (List.cons.inj wrote).1
    exact ((Dag.command_cases accepted).handles hdistinct).raised later
  | recover registry now recovering =>
    obtain ⟨rfl, -⟩ := Occurrence.wrote.inj (List.cons.inj wrote).1
    have hinterrupted := (h.interrupted_task recovering).2
    exact (Dag.handles_recovered hdistinct hinterrupted (Dag.recovered_status registry _) now).raised
      now
  | send => cases wrote
  | reread | halt | find | resume => exact absurd wrote hgrows

end Course

end Stagewise
