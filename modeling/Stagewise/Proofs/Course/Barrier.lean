import Stagewise.Proofs.Course.History
/-!
# While a stage is out

From the moment a stage is sent out until its reports are folded in, nothing is stored but a
cancellation. So what the drive loop saw when it sent the stage out is still true of every request
that goes out, whatever the operator does in the meantime.
-/

namespace Stagewise.Course

/-- The requests of a stage that goes forward: the record that the drive loop stored for them, and
their tasks. -/
structure Launching (s : Course) (b : Barrier) : Prop where
  forward : ¬ RollbackGiven s.history
  requests : ∀ p ∈ b.rest, p.2.action = .execute ∧
    (s.record.Shows p.2.task.id .running ∨ s.record.Shows p.2.task.id .failed)
  committed : ∃ d, stepped? s.history = some d ∧ d.status = .running ∧ d.operator ≠ .rollback ∧
    ∀ p ∈ b.rest, p.2.task.status = .running ∧ ∃ i, d.TaskAt i p.2.task ∧ d.stage = i + 1 ∧
      ∀ j t, d.TaskAt j t → j < i → t.status.isDone

/-- The requests of a stage that is rolled back: their tasks, and what is left of the later
stages. -/
structure Compensating (s : Course) (b : Barrier) : Prop where
  given : RollbackGiven s.history
  requests : ∀ p ∈ b.rest, p.2.action = .rollback ∧ ∃ i t, s.record.TaskAt i t ∧
    t.id = p.2.task.id ∧ s.record.stage = i + 1 ∧ (t.status = .succeeded ∨ t.status = .failed) ∧
      t.capabilities.canRollback
  later : ∀ i t, s.record.TaskAt i t → s.record.stage < i + 1 → ¬ t.status.isExecuted

/-- The requests that are still to go out of a stage. -/
def Outgoing (s : Course) (b : Barrier) : Prop :=
  match b.action with
  | .execute => s.Launching b
  | .rollback => s.Compensating b

variable {s : Course} {b : Barrier}

/-- What holds when a stage is sent out, and again after each of its requests and after a
cancellation, holds as long as the stage is out. -/
theorem Lived.barrier_induction {P : Course → Barrier → Prop}
    (launched : ∀ (s : Course) (n : Node) (now later : Timestamp), s.Lived → s.record.Advancing →
      s.record.status = .running → s.record.currentNode? = some n →
        P (s.write .step (s.record.modifyCurrent fun _ => Dag.launched n now) later
          (.barrier (s.record.execution n now))) (s.record.execution n now))
    (unwound : ∀ (s : Course) (n : Node), s.Lived → s.record.Unwinding →
      s.record.status = .running → s.record.currentNode? = some n →
        P { s with loop := .barrier (s.record.compensation n) } (s.record.compensation n))
    (sent : ∀ (s : Course) (b : Barrier) (a : Agent) (q : DispatchRequest)
      (rest : List (Agent × DispatchRequest)), s.Lived → s.loop = .barrier b →
        b.rest = (a, q) :: rest → P s b →
        P { s with
          loop := .barrier { b with sent := b.sent ++ [(a, q)], rest }
          history := .sent a q :: s.history } { b with sent := b.sent ++ [(a, q)], rest })
    (cancelled : ∀ (s : Course) (b : Barrier) (d : Dag) (later : Timestamp), s.Lived →
      s.loop = .barrier b → s.record.Follows (.operator .cancel) d → P s b →
        P (s.write (.operator .cancel) d later s.loop) b)
    (h : s.Lived) (hb : s.loop = .barrier b) : P s b := by
  induction h generalizing b with
  | submitted fresh built => cases hb
  | @next s s' lived step ih =>
    have hheld := lived.held
    cases step with
    | @proceed move now later ready running hstep =>
      have hrunning : s.record.status = .running := Dag.isRunning_iff.mp running
      obtain ⟨n, hn⟩ := hheld.sound.shaped.currentNode
      rcases hheld.sound.regime with hr | hr | hr
      · cases hr.forward_of_step hn hstep with
        | launch sound left busy =>
          rw [proceed_launch hr] at hb ⊢
          obtain rfl := Standing.barrier.inj hb
          exact launched s n now later lived hr hrunning hn
        | _ => cases hb
      · cases hr.unwind_of_step hn hstep with
        | compensate busy =>
          rw [proceed_compensate hr] at hb ⊢
          obtain rfl := Standing.barrier.inj hb
          exact unwound s n lived hr hrunning hn
        | _ => cases hb
      · exact absurd hr.status (by simp [hrunning])
    | send sending next =>
      obtain rfl := Standing.barrier.inj hb
      exact sent s _ _ _ _ lived sending next (ih sending)
    | @command operator record lines now later accepted =>
      have hmade := Dag.command_cases accepted
      by_cases hcancel : operator = .cancel
      · subst hcancel
        rw [if_pos rfl] at hb ⊢
        exact cancelled s b record later lived hb (hmade.follows hheld.sound) (ih hb)
      · -- Every other command is given to a failed dag, and starts its loop anew.
        rw [if_neg hcancel, hheld.wake_of_failed (hmade.failed hcancel)] at hb
        cases hb
    | _ => cases hb

theorem Lived.launching_launched (h : s.Lived) (hr : s.record.Advancing)
    (running : s.record.status = .running) {n : Node} (hn : s.record.currentNode? = some n)
    (now later : Timestamp) :
    (s.write .step (s.record.modifyCurrent fun _ => Dag.launched n now) later
      (.barrier (s.record.execution n now))).Launching (s.record.execution n now) := by
  have hadvancing := hr.launch hn running now
  have hnode := Dag.currentNode?_launched hn now
  have htask : ∀ p ∈ (s.record.execution n now).rest, p.2.action = .execute ∧
      p.2.task.status = .running ∧ ∃ i,
        (s.record.modifyCurrent fun _ => Dag.launched n now).TaskAt i p.2.task ∧
          i + 1 = s.record.stage := by
    rintro ⟨a, q⟩ hp
    obtain ⟨targets, hbatch, -, -, haction⟩ := Batch.mem_requests_iff.mp hp
    obtain ⟨hmem, hdue, -⟩ := Dag.mem_batchOf_iff.mp hbatch
    obtain ⟨i, hi, ht⟩ := (Dag.mem_currentNode_iff hnode).mp hmem
    exact ⟨haction, by simpa using hdue, i, ht, hi⟩
  constructor
  case forward =>
    rw [write_history, rollbackGiven_wrote, ← h.rollback_iff (by simp [running])]
    simp [hr.operator]
  case requests =>
    intro p hp
    obtain ⟨haction, hs, i, ht, -⟩ := htask p hp
    exact ⟨haction, .inl ⟨i, _, ht, rfl, hs⟩⟩
  case committed =>
    refine ⟨_, rfl, running, hr.operator, fun p hp => ?_⟩
    obtain ⟨-, hs, i, ht, hi⟩ := htask p hp
    refine ⟨hs, i, ht, hi.symm, fun j t htask hj => ?_⟩
    have hbehind : j + 1 < s.record.stage := by omega
    rw [hadvancing.behind j t htask hbehind]
    rfl

theorem Lived.compensating_unwound (h : s.Lived) (hr : s.record.Unwinding)
    (running : s.record.status = .running) {n : Node} (hn : s.record.currentNode? = some n) :
    Compensating { s with loop := .barrier (s.record.compensation n) }
      (s.record.compensation n) := by
  constructor
  case given => exact (h.rollback_iff (by simp [running])).mp hr.operator
  case requests =>
    rintro ⟨a, q⟩ hp
    obtain ⟨targets, hbatch, -, -, haction⟩ := Batch.mem_requests_iff.mp hp
    obtain ⟨hmem, hdue, -⟩ := Dag.mem_batchOf_iff.mp hbatch
    obtain ⟨i, hi, ht⟩ := (Dag.mem_currentNode_iff hn).mp hmem
    exact ⟨haction, i, q.task, ht, rfl, hi.symm, hr.ended_of_executed ht hdue,
      hr.permitted i q.task ht hdue⟩
  case later => exact fun i t ht hi => hr.not_executed_ahead ht hi

theorem Launching.cancelled (h : s.Launching b) {d : Dag}
    (hfollows : s.record.Follows (.operator .cancel) d) (later : Timestamp) (loop : Standing) :
    (s.write (.operator .cancel) d later loop).Launching b where
  forward := by
    rw [write_history, rollbackGiven_wrote]
    simp [h.forward]
  requests := by
    intro p hp
    obtain ⟨haction, hs⟩ := h.requests p hp
    refine ⟨haction, ?_⟩
    rcases hs with hs | hs
    · obtain ⟨after, hafter, hmoved⟩ := hfollows.shownAfter hs
      rcases hmoved.of_cancel with ⟨-, rfl⟩ | ⟨hpending, -⟩ | rfl
      · exact .inr hafter
      · cases hpending
      · exact .inl hafter
    · obtain ⟨after, hafter, hmoved⟩ := hfollows.shownAfter hs
      rcases hmoved.of_cancel with ⟨-, rfl⟩ | ⟨hpending, -⟩ | rfl
      · exact .inr hafter
      · cases hpending
      · exact .inr hafter
  committed := h.committed

theorem Compensating.cancelled (h : s.Compensating b) {d : Dag}
    (hfollows : s.record.Follows (.operator .cancel) d) (later : Timestamp) (loop : Standing) :
    (s.write (.operator .cancel) d later loop).Compensating b where
  given := by
    rw [write_history, rollbackGiven_wrote]
    exact .inr h.given
  requests := by
    intro p hp
    obtain ⟨haction, i, t, ht, hid, hi, hs, hpermitted⟩ := h.requests p hp
    obtain ⟨t', ht', hidentity, hmoved⟩ := hfollows.taskAfter ht
    have hkept : t'.status = t.status := by
      rcases hmoved.of_cancel with ⟨hb, -⟩ | ⟨hb, -⟩ | hsame
      · simp [hb] at hs
      · simp [hb] at hs
      · exact hsame
    refine ⟨haction, i, t', ht', (Task.id_eq_of_identity hidentity).trans hid, ?_, hkept ▸ hs, ?_⟩
    · exact (hfollows.stage_eq (by simp)).trans hi
    · rwa [Task.capabilities_eq_of_identity hidentity]
  later := by
    intro i t' ht' hi
    obtain ⟨t, ht, -, hmoved⟩ := hfollows.taskBefore ht'
    have hopen := h.later i t ht (hfollows.stage_eq (by simp) ▸ hi)
    rcases hmoved.of_cancel with ⟨hb, -⟩ | ⟨-, hafter⟩ | hsame
    · simp [hb, TaskStatus.isExecuted] at hopen
    · simp [hafter, TaskStatus.isExecuted]
    · rwa [hsame]

/-- What the drive loop saw when it sent a stage out is true of every request that is still to go
out. -/
theorem Lived.outgoing (h : s.Lived) (hb : s.loop = .barrier b) : s.Outgoing b := by
  refine Lived.barrier_induction (P := Outgoing) ?_ ?_ ?_ ?_ h hb
  · exact fun s n now later hlived hr running hn =>
      hlived.launching_launched hr running hn now later
  · exact fun s n hlived hr running hn => hlived.compensating_unwound hr running hn
  · intro s b a q rest _ _ hnext hout
    have hless : ∀ p ∈ rest, p ∈ b.rest := fun p hp => hnext ▸ List.mem_cons_of_mem _ hp
    rw [Outgoing] at hout ⊢
    cases haction : b.action with
    | execute =>
      rw [haction] at hout
      obtain ⟨d, hd, hs, hop, htasks⟩ := hout.committed
      refine ⟨?_, fun p hp => hout.requests p (hless p hp), d, hd, hs, hop,
        fun p hp => htasks p (hless p hp)⟩
      exact mt rollbackGiven_sent.mp hout.forward
    | rollback =>
      rw [haction] at hout
      exact ⟨rollbackGiven_sent.mpr hout.given,
        fun p hp => hout.requests p (hless p hp), hout.later⟩
  · intro s b d later _ _ hfollows hout
    rw [Outgoing] at hout ⊢
    cases haction : b.action with
    | execute =>
      rw [haction] at hout
      exact hout.cancelled hfollows later _
    | rollback =>
      rw [haction] at hout
      exact hout.cancelled hfollows later _

/-! ## The request that goes out next -/

variable {a : Agent} {q : DispatchRequest} {rest : List (Agent × DispatchRequest)}

theorem Lived.launching_of_execute (h : s.Lived) (sending : s.loop = .barrier b)
    (next : b.rest = (a, q) :: rest) (hexecute : q.action = .execute) : s.Launching b := by
  have hout := h.outgoing sending
  rw [Outgoing] at hout
  cases haction : b.action with
  | execute =>
    rw [haction] at hout
    exact hout
  | rollback =>
    rw [haction] at hout
    have hrollback := (hout.requests (a, q) (next ▸ List.mem_cons_self ..)).1
    exact absurd (hexecute.symm.trans hrollback) (by decide)

theorem Lived.compensating_of_rollback (h : s.Lived) (sending : s.loop = .barrier b)
    (next : b.rest = (a, q) :: rest) (hrollback : q.action = .rollback) : s.Compensating b := by
  have hout := h.outgoing sending
  rw [Outgoing] at hout
  cases haction : b.action with
  | execute =>
    rw [haction] at hout
    have hexecute := (hout.requests (a, q) (next ▸ List.mem_cons_self ..)).1
    exact absurd (hexecute.symm.trans hrollback) (by decide)
  | rollback =>
    rw [haction] at hout
    exact hout

theorem Lived.shown_of_next (h : s.Lived) (sending : s.loop = .barrier b)
    (next : b.rest = (a, q) :: rest) :
    ∃ status, s.record.Shows q.task.id status ∧ status.isExecuted := by
  cases haction : q.action with
  | execute =>
    have hlaunching := h.launching_of_execute sending next haction
    rcases (hlaunching.requests (a, q) (next ▸ List.mem_cons_self ..)).2 with hs | hs
    · exact ⟨_, hs, by decide⟩
    · exact ⟨_, hs, by decide⟩
  | rollback =>
    have hcompensating := h.compensating_of_rollback sending next haction
    obtain ⟨-, i, t, ht, hid, -, hs, -⟩ :=
      hcompensating.requests (a, q) (next ▸ List.mem_cons_self ..)
    refine ⟨t.status, ⟨i, t, ht, hid, rfl⟩, ?_⟩
    rcases hs with hs | hs <;> simp [hs, TaskStatus.isExecuted]

end Stagewise.Course
