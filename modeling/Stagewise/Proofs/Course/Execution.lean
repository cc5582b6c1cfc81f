import Stagewise.Proofs.Course.Barrier
import Stagewise.Proofs.Course.Play
import Stagewise.Proofs.Dispatch.Runner
/-!
# What success says about execution

A stage is sent to the agents that take part in it, and each of its tasks goes to the agent that is
to do the work as well. Nobody checks who it is that answers at an address. If the agent there goes
by another name, it takes the task for someone else's and acknowledges it, and a task may count as
succeeded that was executed nowhere. Where the agent goes by the name it is addressed with, success
means that the operation was run and ended well.
-/

namespace Stagewise

/-- The report is about the request, and is an error or the answer of an agent that may answer at
the address to which the request went. -/
structure Reported (mayAnswer : Agent → Peer → Prop) (p : Agent × DispatchRequest) (r : Report) :
    Prop where
  task : r.task = p.2.task.id
  agent : r.agent = p.1
  answers : ∀ outcome, r.result = .ok outcome → ∃ peer, mayAnswer p.1 peer ∧
    peer.Answers p.2 outcome

/-- Every request of the stage also goes to the agent that is to do the work. -/
def Barrier.ReachesWorkers (b : Barrier) : Prop :=
  ∀ a q, (a, q) ∈ b.sent ++ b.rest →
    q.action = b.action ∧ (q.task.agent, q) ∈ b.sent ++ b.rest

namespace Course

variable {s s' : Course} {b : Barrier} {reports : List Report} {mayAnswer : Agent → Peer → Prop}

theorem reachesWorkers_requests {n : Node} {due : Task → Bool} {dag : DagId} {action : Action}
    {stage : Nat} :
    Barrier.ReachesWorkers ⟨action, stage, [], (Dag.batchOf n due).requests dag action⟩ := by
  intro a q hq
  rw [List.nil_append] at hq ⊢
  obtain ⟨targets, hbatch, ha, hdag, haction⟩ := Batch.mem_requests_iff.mp hq
  obtain ⟨hmem, hdue, rfl⟩ := Dag.mem_batchOf_iff.mp hbatch
  exact ⟨haction, Batch.mem_requests_iff.mpr
    ⟨_, hbatch, n.agent_mem_targets q.task, hdag, haction⟩⟩

/-- Whatever is sent out for a stage goes to the agent doing the work as well. -/
theorem Lived.reachesWorkers (h : s.Lived) (hb : s.loop = .barrier b) : b.ReachesWorkers := by
  refine h.barrier_induction (P := fun _ b => b.ReachesWorkers) ?launched ?unwound ?sent
    ?cancelled hb
  case launched => exact fun _ _ _ _ _ _ _ _ => reachesWorkers_requests
  case unwound => exact fun _ _ _ _ _ _ => reachesWorkers_requests
  case sent =>
    intro s b a q rest _ _ hnext hreaches a' q' hq
    have hsame : (b.sent ++ [(a, q)]) ++ rest = b.sent ++ b.rest := by simp [hnext]
    simp only [hsame] at hq ⊢
    exact hreaches a' q' hq
  case cancelled => exact fun _ _ _ _ _ _ _ hreaches => hreaches

/-- Only a drive loop that has its reports stores what a barrier does. -/
theorem Step.fold_of_wrote (step : s.Step s') {action : Action}
    (wrote : s'.history = .wrote (.barrier action reports) s'.record :: s.history) :
    ∃ b now later, s.loop = .barrier b ∧ b.action = action ∧ b.Answered reports ∧
      s'.record = (s.record.settle reports action now).dag.raised later := by
  cases step with
  | @proceed move now later ready running hstep =>
    cases hwrite : move.write with
    | none =>
      simp only [Course.proceed, hwrite] at wrote
      exact absurd wrote (List.cons_ne_self _ _).symm
    | some record =>
      simp only [Course.proceed, hwrite, write_history] at wrote
      cases wrote
  | @fold b reports' now later waiting answered running stage =>
    obtain ⟨hauthor, -⟩ := Occurrence.wrote.inj (List.cons.inj wrote).1
    obtain ⟨rfl, rfl⟩ := Author.barrier.inj hauthor
    exact ⟨b, now, later, waiting, rfl, answered, rfl⟩
  | send | command | recover => cases wrote
  | reread | halt | find | resume => exact absurd wrote (List.cons_ne_self _ _).symm

theorem exists_reported {p : Agent × DispatchRequest} {sent : List (Agent × DispatchRequest)}
    (h : List.Forall₂ (Reported mayAnswer) sent reports) (hp : p ∈ sent) :
    ∃ r ∈ reports, Reported mayAnswer p r := by
  induction h with
  | nil => cases hp
  | @cons q r _ _ hr _ ih =>
    rcases List.mem_cons.mp hp with rfl | hp
    · exact ⟨r, List.mem_cons_self, hr⟩
    · obtain ⟨r', hr', hreported⟩ := ih hp
      exact ⟨r', List.mem_cons_of_mem _ hr', hreported⟩

/-- When a forward stage stores a task as succeeded, and whoever may answer at the address of the
agent that is to do the work goes by that name, then that agent has run the operation forward while
the stage was out, and it ended well. -/
theorem executed_of_succeeded (h : s.Lived) (waiting : s.loop = .barrier b) (step : s.Step s')
    (wrote : s'.history = .wrote (.barrier .execute reports) s'.record :: s.history)
    (made : List.Forall₂ (Reported mayAnswer) b.sent reports) {t : Task}
    (ht : t ∈ s'.record.tasks) (reported : ∃ r ∈ reports, r.task = t.id)
    (succeeded : t.status = .succeeded)
    (named : ∀ a q peer, (a, q) ∈ b.sent → q.task.id = t.id → mayAnswer q.task.agent peer →
      peer.identity = q.task.agent) :
    ∃ q peer outcome, (q.task.agent, q) ∈ b.sent ∧ q.task.id = t.id ∧ q.action = .execute ∧
      ⟨t.id, q.task.agent, .ok outcome⟩ ∈ reports ∧ mayAnswer q.task.agent peer ∧
        peer.Executed q outcome := by
  obtain ⟨b', now, later, hwaiting, hforward, hanswered, hrecord⟩ := step.fold_of_wrote wrote
  obtain rfl := Standing.barrier.inj (waiting.symm.trans hwaiting)
  have hsettled : t ∈ (s.record.reported reports .execute now).tasks := by
    rw [hrecord, Dag.settle_execute h.held.sound.shaped.distinct] at ht
    exact ht
  obtain ⟨u, -, hu⟩ := Dag.mem_reported_iff.mp hsettled
  have hid : t.id = u.id := by
    rw [← hu]
    split <;> simp
  rw [if_pos (hid ▸ reported)] at hu
  -- A task that has succeeded has no report of failure, not even from the one who was to do it.
  have hsound : ∀ r ∈ reports, r.task = t.id → ¬ r.fails := by
    intro r hr htask hfails
    rw [← hu, Task.folded_status, if_pos ⟨r, hr, hid ▸ htask, hfails⟩] at succeeded
    cases succeeded
  obtain ⟨⟨a, q⟩, hq, hsame⟩ := hanswered.reported_iff.mp reported
  obtain ⟨haction, hworker⟩ := h.reachesWorkers waiting a q hq
  rw [hanswered.1, List.append_nil] at hq hworker
  obtain ⟨⟨task, agent, result⟩, hr, rfl, rfl, hanswers⟩ := exists_reported made hworker
  have hmade := hsound _ hr hsame
  cases result with
  | error e => exact absurd rfl hmade
  | ok outcome =>
    have hstatus : outcome.status ≠ .failed := by simpa [Report.fails] using hmade
    obtain ⟨peer, hpeer, hanswered⟩ := hanswers outcome rfl
    have hidentity := named a q peer hq hsame hpeer
    exact ⟨q, peer, outcome, hworker, hsame, haction.trans hforward, hsame ▸ hr, hpeer,
      (hanswered.executed_iff hstatus).mpr hidentity⟩

end Course

namespace Sample

/-! ## The same stage, answered by the worker and by a stranger -/

def stranger : Agent := ⟨"stranger", 7000⟩

/-- At every address there is an agent that goes by this name. -/
def namedEverywhere (name : Agent) (_ : Agent) (peer : Peer) : Prop := peer = ⟨name, registry⟩

/-- The first stage is sent out. -/
def sentOut : List Happening := [.proceed dawn dawn, .send, .send]

def outgoing : Barrier :=
  match (course sentOut).loop with
  | .barrier b => b
  | _ => ⟨.execute, 0, [], []⟩

/-- What an agent that goes by this name makes of a request. -/
def reportBy (name : Agent) (p : Agent × DispatchRequest) : Report :=
  ⟨p.2.task.id, p.1,
    match Runner.run registry name p.2 0 .never fun _ => dawn with
    | some (outcome, _) => .ok outcome
    | none => .error (.unknownType p.2.task.typeName)⟩

def reportsBy (name : Agent) : List Report := outgoing.sent.map (reportBy name)

theorem reported_reportBy (name : Agent) (p : Agent × DispatchRequest) :
    Reported (namedEverywhere name) p (reportBy name p) := by
  refine ⟨rfl, rfl, fun outcome hresult => ⟨⟨name, registry⟩, rfl, ?_⟩⟩
  rw [reportBy] at hresult
  cases hrun : Runner.run registry name p.2 0 .never fun _ => dawn with
  | none => simp [hrun] at hresult
  | some made =>
    simp only [hrun, Except.ok.injEq] at hresult
    subst hresult
    exact ⟨0, .never, fun _ => dawn, made.2, hrun⟩

theorem reported_reportsBy (name : Agent) :
    List.Forall₂ (Reported (namedEverywhere name)) outgoing.sent (reportsBy name) := by
  rw [reportsBy, List.forall₂_map_right_iff, List.forall₂_same]
  exact fun p _ => reported_reportBy name p

/-- The course after the answers to the stage. -/
def answeredBy (name : Agent) : Course :=
  (course sentOut).write (.barrier .execute (reportsBy name))
    ((course sentOut).record.settle (reportsBy name) .execute dawn).dag dawn .ready

theorem step_answeredBy (name : Agent) : (course sentOut).Step (answeredBy name) :=
  .fold (b := outgoing) dawn dawn rfl ⟨rfl, rfl⟩ rfl rfl

end Sample

namespace Course

theorem executed_of_succeeded_worker :
    ∃ t ∈ (Sample.answeredBy Sample.worker).record.tasks, t.status = .succeeded ∧
      ∃ (q : DispatchRequest) (peer : Peer) (outcome : Outcome),
        (q.task.agent, q) ∈ Sample.outgoing.sent ∧ q.task.id = t.id ∧
        ⟨t.id, q.task.agent, .ok outcome⟩ ∈ Sample.reportsBy Sample.worker ∧
          peer.Executed q outcome := by
  have hagents : ∀ p ∈ Sample.outgoing.sent, p.2.task.agent = Sample.worker := by decide
  obtain ⟨t, ht, hreported, hsucceeded⟩ :
      ∃ t ∈ (Sample.answeredBy Sample.worker).record.tasks,
        (∃ r ∈ Sample.reportsBy Sample.worker, r.task = t.id) ∧ t.status = .succeeded :=
    ⟨_, List.mem_cons_self, ⟨_, List.mem_cons_self, rfl⟩, rfl⟩
  obtain ⟨q, peer, outcome, hq, hid, -, hr, -, hexecuted⟩ :=
    executed_of_succeeded (Sample.lived Sample.sentOut) rfl (Sample.step_answeredBy Sample.worker)
      rfl (Sample.reported_reportsBy Sample.worker) ht hreported hsucceeded
      fun a q peer hq _ hpeer => by rw [hagents _ hq, hpeer]
  exact ⟨t, ht, hsucceeded, q, peer, outcome, hq, hid, hr, hexecuted⟩

/-- A stranger at the address of the worker acknowledges the tasks of the stage. They are stored as
succeeded, though nobody has executed them. -/
theorem succeeded_unexecuted :
    (Sample.course Sample.sentOut).Lived ∧
      (Sample.course Sample.sentOut).loop = .barrier Sample.outgoing ∧
      (Sample.course Sample.sentOut).Step (Sample.answeredBy Sample.stranger) ∧
      (Sample.answeredBy Sample.stranger).history
        = .wrote (.barrier .execute (Sample.reportsBy Sample.stranger))
          (Sample.answeredBy Sample.stranger).record :: (Sample.course Sample.sentOut).history ∧
      List.Forall₂ (Reported (Sample.namedEverywhere Sample.stranger)) Sample.outgoing.sent
        (Sample.reportsBy Sample.stranger) ∧
      (∃ t ∈ (Sample.answeredBy Sample.stranger).record.tasks,
        (∃ r ∈ Sample.reportsBy Sample.stranger, r.task = t.id) ∧ t.status = .succeeded) ∧
      ∀ p ∈ Sample.outgoing.sent, ∀ (peer : Peer) (outcome : Outcome),
        Sample.namedEverywhere Sample.stranger p.1 peer → ¬ peer.Executed p.2 outcome := by
  refine ⟨Sample.lived _, rfl, Sample.step_answeredBy _, rfl, Sample.reported_reportsBy _,
    ⟨_, List.mem_cons_self, ⟨_, List.mem_cons_self, rfl⟩, rfl⟩, ?unexecuted⟩
  case unexecuted =>
    rintro p hp peer outcome rfl hexecuted
    have hagents : ∀ p ∈ Sample.outgoing.sent, p.2.task.agent = Sample.worker := by decide
    have hown := hexecuted.own
    rw [hagents p hp] at hown
    exact absurd hown (by decide)

end Course

end Stagewise
