import Stagewise.Proofs.Course.RollbackOrder
/-!
# What a rollback compensates

A rollback finds what it has to compensate by the status of the tasks. That is not all that was ever
started: when the process has stopped and recovery has put an interrupted task back to be run again,
and then another task of its stage fails, the rollback passes it over. Every other task that was
sent out to be executed is compensated, after the last time that it was.
-/

namespace Stagewise

/-- The occurrence is a request to execute the task. -/
def Occurrence.executes (id : TaskId) : Occurrence → Bool
  | .sent _ q => q.action == .execute && q.task.id == id
  | .wrote .. => false

namespace Course

/-- What has happened since the task was last sent out to be executed. -/
def sinceExecute (id : TaskId) (history : List Occurrence) : List Occurrence :=
  history.takeWhile fun o => !o.executes id

/-- The task was sent out to be executed. -/
def Executed (id : TaskId) (history : List Occurrence) : Prop := ∃ o ∈ history, o.executes id

/-- Since the task was last sent out to be executed, it was sent to each of its targets to be rolled
back, each of them has reported, and none of the reports about it is a failure. -/
def Compensated (id : TaskId) (history : List Occurrence) : Prop :=
  ∃ later reports d before,
    sinceExecute id history = later ++ .wrote (.barrier .rollback reports) d :: before ∧
      (∃ n ∈ d.nodes, ∃ q : DispatchRequest, q.action = .rollback ∧ q.task.id = id ∧
        id ∈ n.tasks.map (·.id) ∧
        ∀ a ∈ n.targets q.task, .sent a q ∈ before ∧ ∃ r ∈ reports, r.task = id ∧ r.agent = a) ∧
      ∀ r ∈ reports, r.task = id → ¬ r.fails

/-- Since the task was last sent out to be executed, recovery has seen to it. -/
def PutBack (id : TaskId) (history : List Occurrence) : Prop :=
  ∃ d, .wrote (.recovery id) d ∈ sinceExecute id history

variable {s : Course} {id : TaskId} {history : List Occurrence} {o : Occurrence}

theorem sinceExecute_cons (h : o.executes id = false) :
    sinceExecute id (o :: history) = o :: sinceExecute id history := by
  rw [sinceExecute, List.takeWhile_cons_of_pos (by simp [h])]
  rfl

theorem executed_cons : Executed id (o :: history) ↔ o.executes id ∨ Executed id history := by
  simp only [Executed, List.mem_cons, exists_eq_or_imp]

theorem Compensated.cons (h : Compensated id history) (ho : o.executes id = false) :
    Compensated id (o :: history) := by
  obtain ⟨later, reports, d, before, heq, hrest⟩ := h
  exact ⟨o :: later, reports, d, before, by rw [sinceExecute_cons ho, heq, List.cons_append], hrest⟩

theorem PutBack.cons (h : PutBack id history) (ho : o.executes id = false) :
    PutBack id (o :: history) := by
  obtain ⟨d, hd⟩ := h
  exact ⟨d, by rw [sinceExecute_cons ho]; exact List.mem_cons_of_mem _ hd⟩

theorem executes_sent_iff {a : Agent} {q : DispatchRequest} :
    (Occurrence.sent a q).executes id ↔ q.action = .execute ∧ q.task.id = id := by
  simp [Occurrence.executes]

theorem executes_rollback {a : Agent} {q : DispatchRequest} (h : q.action = .rollback) :
    (Occurrence.sent a q).executes id = false := by
  simp [Occurrence.executes, h]

/-- The requests of a rollback lie behind the last request to execute any task. -/
theorem Lived.sent_since_execute (h : s.Lived) {b : Barrier} (hb : s.loop = .barrier b)
    (hback : b.action = .rollback) (id : TaskId) :
    ∀ p ∈ b.sent, .sent p.1 p.2 ∈ sinceExecute id s.history := by
  refine Lived.barrier_induction
    (P := fun s b => b.action = .rollback → ∀ p ∈ b.sent, .sent p.1 p.2 ∈ sinceExecute id s.history)
    ?_ ?_ ?_ ?_ h hb hback
  · intro s n now later _ _ _ _ hback
    cases hback
  · intro s n _ _ _ _ _ p hp
    cases hp
  · intro s b a q rest hlived sending next ih hback p hp
    have hout := hlived.outgoing sending
    rw [Outgoing, hback] at hout
    have haction := (hout.requests (a, q) (next ▸ List.mem_cons_self ..)).1
    rw [sinceExecute_cons (executes_rollback haction)]
    rcases List.mem_append.mp hp with hearlier | hnew
    · exact List.mem_cons_of_mem _ (ih hback p hearlier)
    · obtain rfl := List.mem_singleton.mp hnew
      exact List.mem_cons_self ..
  · intro s b d later _ _ _ ih hback p hp
    rw [write_history, sinceExecute_cons rfl]
    exact List.mem_cons_of_mem _ (ih hback p hp)

theorem targets_congr {n n' : Node} (h : n'.participants = n.participants) (t : Task) :
    n'.targets t = n.targets t := by
  rw [Node.targets, Node.targets, h]

/-- When the reports about a task of a rollback are in, and none of them is a failure, the task is
compensated. -/
theorem Lived.compensated_of_reported (h : s.Lived) {b : Barrier} (waiting : s.loop = .barrier b)
    (hback : b.action = .rollback) {reports : List Report} (answered : b.Answered reports)
    {d : Dag} (hfollows : s.record.Follows (.barrier .rollback reports) d)
    (hreported : ∃ r ∈ reports, r.task = id) (hsound : ∀ r ∈ reports, r.task = id → ¬ r.fails) :
    Compensated id (.wrote (.barrier .rollback reports) d :: s.history) := by
  have hout := h.held.sentOut waiting (by simp [hfollows.may.1])
  obtain ⟨n, hn, hrequests⟩ := hout.batch
  obtain ⟨⟨a, q⟩, hq, hid⟩ := answered.reported_iff.mp hreported
  have hsame : q.task.id = id := hid
  have hall := hrequests
  rw [answered.1, List.append_nil] at hall
  rw [hrequests] at hq
  obtain ⟨targets, hbatch, -, hdag, haction⟩ := Batch.mem_requests_iff.mp hq
  obtain ⟨hmem, -, rfl⟩ := Dag.mem_batchOf_iff.mp hbatch
  obtain ⟨n', hn', hparticipants, hids⟩ := hfollows.nodeAfter (Dag.currentNode?_eq_some_iff.mp hn).2
  refine ⟨[], reports, d, sinceExecute id s.history, sinceExecute_cons rfl, ?_, hsound⟩
  refine ⟨n', List.mem_of_getElem? hn', q, haction.trans hback, hsame, ?_, fun a' ha' => ?_⟩
  · rw [hids, ← hsame]
    exact List.mem_map_of_mem hmem
  · rw [targets_congr hparticipants] at ha'
    have hsent : (a', q) ∈ b.sent :=
      hall ▸ Batch.mem_requests_iff.mpr ⟨_, hbatch, ha', hdag, haction⟩
    refine ⟨h.sent_since_execute waiting hback id (a', q) hsent, ?_⟩
    have hanswer : (id, a') ∈ reports.map fun r => (r.task, r.agent) := by
      rw [answered.2, ← hsame]
      exact List.mem_map.mpr ⟨(a', q), hsent, rfl⟩
    obtain ⟨r, hr, heq⟩ := List.mem_map.mp hanswer
    obtain ⟨htask, hagent⟩ := Prod.mk.inj heq
    exact ⟨r, hr, htask, hagent⟩

/-- A task that is rolled back is compensated, and stays so. -/
theorem Lived.compensated_of_rolledBack (h : s.Lived) (hs : s.record.Shows id .rolledBack) :
    Compensated id s.history := by
  refine h.history_induction (P := fun history record => record.Shows id .rolledBack →
    Compensated id history)
    ?_ ?_ ?_ hs
  · rintro d - hpending - ⟨i, t, ht, -, hs⟩
    rw [hpending i t ht] at hs
    cases hs
  · intro s b a q rest hlived sending next ih hs
    refine (ih hs).cons ?_
    by_contra hexecutes
    obtain ⟨hexecute, rfl⟩ := executes_sent_iff.mp (Bool.not_eq_false _ ▸ hexecutes)
    obtain ⟨status, hshown, hexecuted⟩ := hlived.shown_of_next sending next
    rw [hlived.held.sound.shaped.distinct.shows_unique hshown hs] at hexecuted
    cases hexecuted
  · intro s author d hlived horigin hfollows _ ih hs
    obtain ⟨before, hbefore, hmoved⟩ := hfollows.shownBefore hs
    rcases hmoved.to_rolledBack rfl with rfl | ⟨reports, rfl, hreported, hsound⟩
    · exact (ih hbefore).cons rfl
    · cases horigin with
      | barrier waiting direction answered =>
        exact hlived.compensated_of_reported waiting direction answered hfollows hreported hsound

/-! ## What is passed over -/

theorem mem_of_mem_sinceExecute (h : o ∈ sinceExecute id history) : o ∈ history :=
  (List.takeWhile_sublist _).subset h

theorem Compensated.exists_sent (h : Compensated id history) :
    ∃ a q, .sent a q ∈ history ∧ q.action = .rollback ∧ q.task.id = id := by
  obtain ⟨later, reports, d, before, heq, ⟨n, -, q, haction, hid, -, htargets⟩, -⟩ := h
  obtain ⟨hsent, -⟩ := htargets q.task.agent (n.agent_mem_targets q.task)
  have hsince : .sent q.task.agent q ∈ sinceExecute id history := by
    rw [heq]
    exact List.mem_append_right _ (List.mem_cons_of_mem _ hsent)
  exact ⟨q.task.agent, q, mem_of_mem_sinceExecute hsince, haction, hid⟩

/-- While a rollback goes on, a task that was sent out to be rolled back does not wait any more. -/
theorem Lived.not_pending_of_sent (h : s.Lived) {a : Agent} {q : DispatchRequest}
    (hsent : .sent a q ∈ s.history) (hrollback : q.action = .rollback) :
    RollbackGiven s.history ∧
      (s.record.operator = .rollback → ¬ s.record.Shows q.task.id .pending) := by
  refine h.history_induction (P := fun history record => .sent a q ∈ history →
    RollbackGiven history ∧ (record.operator = .rollback → ¬ record.Shows q.task.id .pending))
      ?_ ?_ ?_ hsent
  · intro d _ _ _ hmem
    simp at hmem
  · intro s b a' q' rest hlived sending next ih hmem
    rcases List.mem_cons.mp hmem with heq | hearlier
    · obtain ⟨rfl, rfl⟩ := Occurrence.sent.inj heq
      have hcompensating := hlived.compensating_of_rollback sending next hrollback
      refine ⟨rollbackGiven_sent.mpr hcompensating.given, fun _ hpending => ?_⟩
      obtain ⟨status, hshown, hexecuted⟩ := hlived.shown_of_next sending next
      rw [hlived.held.sound.shaped.distinct.shows_unique hshown hpending] at hexecuted
      cases hexecuted
    · obtain ⟨hgiven, hnot⟩ := ih hearlier
      exact ⟨rollbackGiven_sent.mpr hgiven, hnot⟩
  · intro s author d hlived _ hfollows hsound ih hmem
    obtain ⟨hgiven, hnot⟩ := ih ((List.mem_cons.mp hmem).resolve_left (by simp))
    refine ⟨rollbackGiven_wrote.mpr (.inr hgiven), fun hback hpending => ?_⟩
    have hstatus : d.status ≠ .cancelled := by
      rcases (hsound.unwinding_of_rollback hback).status with hs | hs <;> simp [hs]
    have hbefore := mt (fun hs => hfollows.cancelled.mpr (.inl hs)) hstatus
    have hrecord := (hlived.rollback_iff hbefore).mpr hgiven
    obtain ⟨before, hshown, hmoved⟩ := hfollows.shownBefore hpending
    -- A retry or recovery would let the task wait again, but neither happens under a rollback.
    rcases hmoved.to_pending rfl with rfl | rfl | rfl
    · exact hnot hrecord hshown
    · exact hfollows.may.2 hrecord
    · exact hfollows.may hrecord

/-- While a dag advances, no task beyond its stage has been sent out to be executed. -/
theorem Lived.reached_of_executed (h : s.Lived) (hr : s.record.Advancing) {i : Nat} {t : Task}
    (ht : s.record.TaskAt i t) (hexecuted : Executed t.id s.history) : i + 1 ≤ s.record.stage := by
  refine h.history_induction (P := fun history record => record.Advancing → ∀ i t,
    record.TaskAt i t → Executed t.id history → i + 1 ≤ record.stage) ?_ ?_ ?_ hr i t ht hexecuted
  · rintro d - - - - i t - ⟨o, ho, hexecutes⟩
    rw [List.mem_singleton.mp ho] at hexecutes
    cases hexecutes
  · intro s b a q rest hlived sending next ih hr i t ht hexecuted
    rcases executed_cons.mp hexecuted with hnow | hearlier
    · have hout := hlived.held.sentOut sending hr.status
      have hmem : (a, q) ∈ b.sent ++ b.rest :=
        List.mem_append_right _ (next ▸ List.mem_cons_self ..)
      have hid := (executes_sent_iff.mp hnow).2
      exact Nat.le_of_eq
        ((hout.mem_ids_iff hlived.held.sound.shaped.distinct ht).mp ⟨(a, q), hmem, hid⟩).1
    · exact ih hr i t ht hearlier
  · intro s author d hlived _ hfollows _ ih hr i t ht hexecuted
    obtain ⟨hbefore, -⟩ := hfollows.advancing hlived.held.sound hr
    obtain ⟨u, hu, hidentity, -⟩ := hfollows.taskBefore ht
    have hearlier : Executed u.id s.history := by
      rw [← Task.id_eq_of_identity hidentity]
      exact (executed_cons.mp hexecuted).resolve_left (by simp [Occurrence.executes])
    exact Nat.le_trans (ih hbefore i u hu hearlier) (hfollows.stage_le hbefore.operator)

end Course

/-- A dag that has just been told to go on: none of its tasks has failed or runs. -/
structure Dag.Fresh (d : Dag) : Prop where
  running : d.status = .running
  operator : d.operator ≠ .rollback
  tasks : ∀ i t, d.TaskAt i t → t.status ≠ .failed ∧ t.status ≠ .running

namespace Dag

variable {d d' : Dag}

theorem Fresh.raised (h : d.Fresh) (now : Timestamp) : (d.raised now).Fresh :=
  ⟨h.running, h.operator, h.tasks⟩

theorem Fresh.advancing (h : d.Fresh) (hsound : d.Sound) : d.Advancing :=
  hsound.advancing_of_ne_rollback h.operator (by simp [h.running])

/-- A step of a dag that is to go on leaves no task waiting up to its stage, unless it only leaves
the stage. -/
theorem Fresh.forward (h : d.Fresh) (hsound : d.Sound) {n : Node} (hn : d.currentNode? = some n)
    {now : Timestamp} {move : Move} (hmove : d.Forward n now move) (hwrite : move.write = some d')
    {i : Nat} {t : Task} (ht : d'.TaskAt i t) (hi : i + 1 ≤ d.stage) (hs : t.status = .pending) :
    d'.Fresh := by
  have hr := h.advancing hsound
  cases hmove with
  | advance done more =>
    obtain rfl := Option.some.inj hwrite
    exact ⟨h.running, h.operator, h.tasks⟩
  | finish done last =>
    obtain rfl := Option.some.inj hwrite
    have hdone := (hr.finish hsound.shaped hn done last).finished rfl
    rw [hdone.2 i t ht] at hs
    cases hs
  | park failed =>
    obtain ⟨u, hu, hfailed⟩ := failed
    obtain ⟨j, -, hj⟩ := (mem_currentNode_iff hn).mp hu
    exact absurd hfailed (h.tasks j u hj).1
  | stuck sound left idle message => exact absurd idle (hr.launchBatch_ne_nil hn sound left)
  | launch sound left busy =>
    obtain rfl := Option.some.inj hwrite
    rw [launched_eq_mapAt hn] at ht
    obtain ⟨u, hu, rfl⟩ := taskAt_mapAt.mp ht
    by_cases hhere : i + 1 = d.stage
    · rw [if_pos hhere, markRunning_status] at hs
      split at hs
      · simp_all [TaskStatus.isTerminal]
      · cases hs
    · rw [if_neg hhere] at hs
      simp [hr.behind i u hu (by omega)] at hs

theorem Commanded.fresh_of_retry (hsound : d.Sound) {now : Timestamp} {lines : LogLines}
    (h : d.Commanded now .retry d' lines) : d'.Fresh := by
  cases h with
  | retry failed forward node nonempty permitted =>
    have hr := hsound.advancing_of_ne_rollback forward (by simp [failed])
    obtain ⟨-, hfresh⟩ :=
      hr.resume hsound.shaped.distinct failed node (f := again) (fun _ => rfl) (fun _ => .inl rfl)
        .retry (by simp)
    exact ⟨rfl, by simp, hfresh⟩

theorem SentOut.not_pending {b : Barrier} (h : d.SentOut b) (hr : d.Advancing)
    (hexecute : b.action = .execute) {i : Nat} {t : Task} (ht : d.TaskAt i t)
    (hi : i + 1 ≤ d.stage) : t.status ≠ .pending := by
  rcases Nat.lt_or_eq_of_le hi with hlt | heq
  · simp [hr.behind i t ht hlt]
  · rcases h.underWay hexecute i t ht heq with hs | hs <;> simp [hs]

end Dag

namespace Course

variable {s : Course} {id : TaskId}

/-- A dag that is to go on is still so after a record that lets a task wait which it has reached. -/
theorem Lived.fresh_of_pending (h : s.Lived) (hfresh : s.record.Fresh) {author : Author} {d : Dag}
    (horigin : author.Origin s d) (hfollows : s.record.Follows author d)
    (hstatus : d.status ≠ .cancelled) {i : Nat} {t : Task} (ht : d.TaskAt i t)
    (hi : i + 1 ≤ s.record.stage) (hs : t.status = .pending) : d.Fresh := by
  have hheld := h.held
  have hr := hfresh.advancing hheld.sound
  have hmay := hfollows.may
  cases horigin with
  | step later step write stored =>
    obtain ⟨n, hn⟩ := hheld.sound.shaped.currentNode
    rw [stored] at ht ⊢
    exact (hfresh.forward hheld.sound hn (hr.forward_of_step hn step) write ht hi hs).raised later
  | barrier waiting direction answered =>
    have hout := hheld.sentOut waiting hr.status
    have hexecute := hout.direction ▸ Dag.direction_eq_execute_iff.mpr hr.operator
    obtain ⟨u, hu, -, hmoved⟩ := hfollows.taskBefore ht
    rcases hmoved.to_pending hs with hpending | hauthor | hauthor
    · exact absurd hpending (hout.not_pending hr hexecute hu hi)
    · cases hauthor
    · cases hauthor
  | @operator command now record lines later accepted stored =>
    by_cases hcancel : command = .cancel
    · exact absurd (hfollows.cancelled.mpr (.inr (by rw [hcancel]))) hstatus
    · have hfailed := (Dag.command_cases accepted).failed hcancel
      exact absurd (hfresh.running.symm.trans hfailed) (by decide)
  | @recovery t left recovering =>
    have hleft := hheld.interrupted recovering hr.status
    obtain ⟨j, u, hu, hid⟩ := hleft.present t (List.mem_cons_self ..)
    exact absurd ((hleft.mem_iff j u hu).mp (by simp [hid])) (hfresh.tasks j u hu).2

/-- A task that was sent out to be executed and waits was put back by recovery, or the dag has just
been told to go on. -/
theorem Lived.putBack_or_fresh (h : s.Lived) (hstatus : s.record.status ≠ .cancelled)
    (hs : s.record.Shows id .pending) (hexecuted : Executed id s.history) :
    PutBack id s.history ∨ s.record.Fresh := by
  refine h.history_induction (P := fun history record => record.status ≠ .cancelled →
    record.Shows id .pending → Executed id history → PutBack id history ∨ record.Fresh) ?_ ?_ ?_
      hstatus hs hexecuted
  · rintro d - - - - - ⟨o, ho, hexecutes⟩
    rw [List.mem_singleton.mp ho] at hexecutes
    cases hexecutes
  · intro s b a q rest hlived sending next ih hstatus hs hexecuted
    cases hnow : (Occurrence.sent a q).executes id with
    | true =>
      obtain ⟨-, rfl⟩ := executes_sent_iff.mp hnow
      obtain ⟨status, hshown, hrun⟩ := hlived.shown_of_next sending next
      rw [hlived.held.sound.shaped.distinct.shows_unique hshown hs] at hrun
      cases hrun
    | false =>
      have hearlier := (executed_cons.mp hexecuted).resolve_left (by simp [hnow])
      exact (ih hstatus hs hearlier).imp (·.cons hnow) (fun hfresh => hfresh)
  · intro s author d hlived horigin hfollows hsound ih hstatus hs hexecuted
    have hearlier : Executed id s.history :=
      (executed_cons.mp hexecuted).resolve_left (by simp [Occurrence.executes])
    have hbefore := mt (fun hs => hfollows.cancelled.mpr (.inl hs)) hstatus
    obtain ⟨i, t, ht, hid, hpending⟩ := hs
    obtain ⟨u, hu, hidentity, hmoved⟩ := hfollows.taskBefore ht
    have hsame : u.id = id := (Task.id_eq_of_identity hidentity).symm.trans hid
    rcases hmoved.to_pending hpending with hwaiting | rfl | rfl
    -- It waited before: what let it wait then still does.
    · rcases ih hbefore ⟨i, u, hu, hsame, hwaiting⟩ hearlier with hputBack | hfresh
      · exact .inl (hputBack.cons rfl)
      · have hi :=
          hlived.reached_of_executed (hfresh.advancing hlived.held.sound) hu (hsame ▸ hearlier)
        exact .inr (hlived.fresh_of_pending hfresh horigin hfollows hstatus ht hi hpending)
    · cases horigin with
      | operator later accepted stored =>
        rw [stored]
        exact .inr ((Dag.command_cases accepted).fresh_of_retry hlived.held.sound |>.raised later)
    · refine .inl ⟨d, ?_⟩
      rw [sinceExecute_cons rfl, hsame]
      exact List.mem_cons_self ..

/-- Whatever happens to a dag: when it counts as rolled back, a task that was sent out to be
executed is compensated just when it does not wait to be run again; and one that waits was put back
by recovery since it was last sent out. -/
theorem compensated_iff_not_pending (h : s.Lived) (hback : s.record.isRolledBack? = some true)
    {i : Nat} {t : Task} (ht : s.record.TaskAt i t) (hexecuted : Executed t.id s.history) :
    (Compensated t.id s.history ↔ t.status ≠ .pending) ∧
      (t.status = .pending → PutBack t.id s.history) := by
  have hsound := h.held.sound
  obtain ⟨hfailed, hoperator⟩ := Dag.failed_of_isRolledBack hback
  have hr := hsound.unwinding_of_rollback hoperator
  have hnone := (hr.isRolledBack?_iff hsound.shaped hfailed).mp hback
  refine ⟨⟨fun hcompensated hs => ?_, fun hs => ?_⟩, fun hs => ?_⟩
  · obtain ⟨a, q, hsent, hrollback, hid⟩ := hcompensated.exists_sent
    refine (h.not_pending_of_sent hsent hrollback).2 hoperator ?_
    rw [hid, ← hs]
    exact ht.shows
  · rcases hr.undone_of_not_executed ht (hnone i t ht) with hpending | hrolledBack
    · exact absurd hpending hs
    · exact h.compensated_of_rolledBack (hrolledBack ▸ ht.shows)
  · rcases h.putBack_or_fresh (by simp [hfailed]) (hs ▸ ht.shows) hexecuted with hputBack | hfresh
    · exact hputBack
    · exact absurd hoperator hfresh.operator

/-- A task that was executed is not compensated: it was interrupted, put back, and passed over. -/
theorem passed_over_undone : ∃ t, (Sample.course Sample.undone).record.TaskAt 0 t ∧
    (Sample.course Sample.undone).record.isRolledBack? = some true ∧
      Executed t.id (Sample.course Sample.undone).history ∧
        ¬ Compensated t.id (Sample.course Sample.undone).history ∧
          PutBack t.id (Sample.course Sample.undone).history := by
  have hback : (Sample.course Sample.undone).record.isRolledBack? = some true := by rfl
  obtain ⟨t, ht, hs, hid⟩ : ∃ t, (Sample.course Sample.undone).record.TaskAt 0 t ∧
      t.status = .pending ∧ t.id = Sample.ids.task 0 0 :=
      ⟨_, ⟨_, rfl, List.mem_of_getElem? (i := 0) rfl⟩, rfl, rfl⟩
  have hexecuted : Executed t.id (Sample.course Sample.undone).history := by
    rw [hid, Executed, ← List.any_eq_true]
    rfl
  obtain ⟨hiff, hputBack⟩ :=
    compensated_iff_not_pending (Sample.lived Sample.undone) hback ht hexecuted
  exact ⟨t, ht, hback, hexecuted, fun hcompensated => hiff.mp hcompensated hs, hputBack hs⟩

end Course

end Stagewise
