import Mathlib.Logic.Relation
import Stagewise.Proofs.Course.Execution
import Stagewise.Proofs.Table
/-!
# The contexts of tasks

A task goes out with its context, every agent sends a context back, and only the one of the agent
that does the work is kept. So what a task carries from one attempt to the next is what this agent
made of it last, whatever the operator, a restart or the other agents have done in between.
-/

namespace Stagewise

open Relation (ReflTransGen)

/-- The outcome leaves the context that was sent as it is, but for the results. -/
structure Outcome.Keeps (o : Outcome) (q : DispatchRequest) : Prop where
  agent : o.context.executeAgent = q.task.context.executeAgent
  params : o.context.params = q.task.context.params

/-- The outcome that a report brings of a task from an agent, if it does. -/
def Report.outcomeOf? (r : Report) (id : TaskId) (agent : Agent) : Option Outcome :=
  if r.task = id ∧ r.agent = agent then r.result.toOption else none

/-- The last outcome among reports that is about the task and of the agent. -/
def lastOutcome? (reports : List Report) (id : TaskId) (agent : Agent) : Option Outcome :=
  (reports.filterMap (·.outcomeOf? id agent)).getLast?

/-- What a report makes of the context of its task. -/
def TaskContext.adopting (c : TaskContext) (r : Report) : TaskContext :=
  match r.result with
  | .ok outcome => if r.agent = c.executeAgent then outcome.context else c
  | .error _ => c

/-- The status that a report brings. -/
def Report.status (r : Report) : TaskStatus :=
  match r.result with
  | .ok outcome => outcome.status
  | .error _ => .failed

/-- What a report makes of the results by agent. -/
def Report.entered (results : Named TaskStatus) (r : Report) : Named TaskStatus :=
  results.insert r.agent.text r.status

/-- The context in which an author leaves a task. -/
def Author.contextAfter (t : Task) : Author → TaskContext
  | .barrier _ reports => (reports.filter (·.task == t.id)).foldl TaskContext.adopting t.context
  | _ => t.context

namespace Course

/-- The results that the agent of a task has brought up to the end of a history, the latest in the
stead of earlier ones. -/
def carried (id : TaskId) (agent : Agent) : List Occurrence → Fields
  | [] => .empty
  | .wrote (.barrier _ reports) _ :: earlier =>
    match lastOutcome? reports id agent with
    | some outcome => outcome.context.results
    | none => carried id agent earlier
  | _ :: earlier => carried id agent earlier

/-- Every outcome that is folded in answers a request that went out to its agent, and where the work
was that agent's own, it has changed nothing of the context but the results. -/
def ChangesResultsOnly : List Occurrence → Prop
  | [] => True
  | .wrote (.barrier _ reports) _ :: earlier =>
    (∀ r ∈ reports, ∀ outcome, r.result = .ok outcome →
      ∃ q, .sent r.agent q ∈ earlier ∧ q.task.id = r.task ∧
        (q.task.agent = r.agent → outcome.Keeps q)) ∧ ChangesResultsOnly earlier
  | _ :: earlier => ChangesResultsOnly earlier

end Course

/-! ## What is folded into a task -/

theorem Folding.add_task (f : Folding) (r : Report) :
    (f.add r).task = { f.task with
      context := f.task.context.adopting r, agentResults := r.entered f.task.agentResults } := by
  cases hresult : r.result with
  | ok outcome =>
    simp only [add, TaskContext.adopting, Report.entered, Report.status, hresult, adopt, enter,
      note, Task.agent]
    split <;> split <;> rfl
  | error e =>
    simp only [add, TaskContext.adopting, Report.entered, Report.status, hresult, enter, note]

theorem Folding.foldl_add_task (reports : List Report) (f : Folding) :
    (reports.foldl add f).task = { f.task with
      context := reports.foldl TaskContext.adopting f.task.context,
      agentResults := reports.foldl Report.entered f.task.agentResults } := by
  induction reports generalizing f with
  | nil => rfl
  | cons r rest ih => rw [List.foldl_cons, ih, add_task, List.foldl_cons, List.foldl_cons]

/-- A task after its reports has the context and the results that these have left. -/
theorem Task.folded_eq (t : Task) (reports : List Report) (action : Action) (now : Timestamp) :
    t.folded reports action now = { t with
      context := (reports.filter (·.task == t.id)).foldl TaskContext.adopting t.context
      agentResults := (reports.filter (·.task == t.id)).foldl Report.entered t.agentResults
      status := if ∃ r ∈ reports, r.task = t.id ∧ r.fails then .failed else action.success
      finishedAt := some now } := by
  have htask := Folding.foldl_add_task (reports.filter (·.task == t.id)) ⟨t, none, []⟩
  rw [← folding] at htask
  simp only [folded, Folding.close, htask, folding_error_isSome_iff]

theorem Task.folded_context (t : Task) (reports : List Report) (action : Action)
    (now : Timestamp) : (t.folded reports action now).context
      = (reports.filter (·.task == t.id)).foldl TaskContext.adopting t.context := by
  rw [t.folded_eq]

/-- What becomes of the context of a task is the author's doing alone. -/
theorem Handled.context {author : Author} {t t' : Task} (h : Handled author t t') :
    t'.context = author.contextAfter t := by
  cases h with
  | kept spared =>
    cases author with
    | barrier action reports =>
      have hnone : reports.filter (·.task == t.id) = [] :=
        List.filter_eq_nil_iff.mpr fun r hr hid => spared ⟨r, hr, by simpa using hid⟩
      rw [Author.contextAfter, hnone]
      rfl
    | _ => rfl
  | folded now => exact t.folded_context ..
  | _ => rfl

/-- A context changes only with an outcome of the agent that does the work. -/
theorem TaskContext.foldl_adopting_cases (reports : List Report) (c : TaskContext) :
    reports.foldl adopting c = c ∨
      ∃ r ∈ reports, r.agent = c.executeAgent ∧ ∃ outcome, r.result = .ok outcome := by
  induction reports with
  | nil => exact .inl rfl
  | cons r rest ih =>
    rw [List.foldl_cons]
    cases hresult : r.result with
    | error e =>
      have hsame : c.adopting r = c := by rw [adopting, hresult]
      rw [hsame]
      exact ih.imp_right fun ⟨r', hr', h⟩ => ⟨r', List.mem_cons_of_mem _ hr', h⟩
    | ok outcome =>
      by_cases hagent : r.agent = c.executeAgent
      · exact .inr ⟨r, List.mem_cons_self, hagent, outcome, hresult⟩
      · have hsame : c.adopting r = c := by rw [adopting, hresult]; exact if_neg hagent
        rw [hsame]
        exact ih.imp_right fun ⟨r', hr', h⟩ => ⟨r', List.mem_cons_of_mem _ hr', h⟩

section LastOutcome

variable {reports : List Report} {r : Report} {id : TaskId} {agent : Agent} {o : Outcome}

theorem Report.outcomeOf?_eq_some_iff :
    r.outcomeOf? id agent = some o ↔ r.task = id ∧ r.agent = agent ∧ r.result = .ok o := by
  rw [outcomeOf?, Option.ite_none_right_eq_some, and_assoc]
  cases r.result <;> simp [Except.toOption]

theorem lastOutcome?_cons (r : Report) (rest : List Report) :
    lastOutcome? (r :: rest) id agent = match r.outcomeOf? id agent with
      | some o => some ((lastOutcome? rest id agent).getD o)
      | none => lastOutcome? rest id agent := by
  rw [lastOutcome?, List.filterMap_cons]
  cases r.outcomeOf? id agent with
  | none => rfl
  | some o => exact List.getLast?_cons

theorem mem_of_lastOutcome (h : lastOutcome? reports id agent = some o) :
    ∃ r ∈ reports, r.task = id ∧ r.agent = agent ∧ r.result = .ok o := by
  obtain ⟨r, hr, houtcome⟩ := List.mem_filterMap.mp (List.mem_of_getLast? h)
  exact ⟨r, hr, Report.outcomeOf?_eq_some_iff.mp houtcome⟩

theorem TaskContext.adopting_eq (c : TaskContext) (r : Report) :
    c.adopting r = ((r.outcomeOf? r.task c.executeAgent).map (·.context)).getD c := by
  rw [adopting, Report.outcomeOf?]
  cases r.result with
  | ok outcome => by_cases hagent : r.agent = c.executeAgent <;> simp [hagent, Except.toOption]
  | error e => simp [Except.toOption]

/-- While no outcome of the agent hands the work to another one, the last of them is the one that
counts. -/
theorem TaskContext.foldl_adopting_eq {c : TaskContext}
    (keeps : ∀ r ∈ reports, ∀ o, r.outcomeOf? id c.executeAgent = some o →
      o.context.executeAgent = c.executeAgent) :
    (reports.filter (·.task == id)).foldl adopting c
      = ((lastOutcome? reports id c.executeAgent).map (·.context)).getD c := by
  induction reports generalizing c with
  | nil => rfl
  | cons r rest ih =>
    have hrest := fun r' hr' => keeps r' (List.mem_cons_of_mem r hr')
    rw [lastOutcome?_cons]
    cases houtcome : r.outcomeOf? id c.executeAgent with
    | none =>
      rw [← ih hrest, List.filter_cons]
      split
      case isTrue hid =>
        have hsame : c.adopting r = c := by
          rw [adopting_eq, beq_iff_eq.mp hid, houtcome]
          rfl
        rw [List.foldl_cons, hsame]
      case isFalse => rfl
    | some o =>
      have hid := (Report.outcomeOf?_eq_some_iff.mp houtcome).1
      have hadopted : c.adopting r = o.context := by
        rw [adopting_eq, hid, houtcome]
        rfl
      have hagent := keeps r List.mem_cons_self o houtcome
      rw [List.filter_cons_of_pos (by simpa using hid), List.foldl_cons, hadopted,
        ih (by rwa [hagent]), hagent]
      cases lastOutcome? rest id c.executeAgent <;> rfl

end LastOutcome

/-! ## What is carried along -/

/-- The task of the specification that goes by the identifier. -/
def DagSpec.Names (spec : DagSpec) (ids : FreshIds) (id : TaskId) (u : TaskSpec) : Prop :=
  ∃ i j n, spec.nodes[i]? = some n ∧ n.tasks[j]? = some u ∧ id = ids.task i j

theorem FreshIds.DistinctFor.unique {ids : FreshIds} {spec : DagSpec} (h : ids.DistinctFor spec)
    {id : TaskId} {u u' : TaskSpec} (hu : spec.Names ids id u) (hu' : spec.Names ids id u') :
    u = u' := by
  obtain ⟨i, j, n, hn, hj, rfl⟩ := hu
  obtain ⟨i', j', n', hn', hj', hid⟩ := hu'
  have hlt := (List.getElem?_eq_some_iff.mp hj).1
  have hlt' := (List.getElem?_eq_some_iff.mp hj').1
  obtain ⟨rfl, rfl⟩ := h i n i' n' hn hn' j hlt j' hlt' hid
  obtain rfl := Option.some.inj (hn.symm.trans hn')
  exact Option.some.inj (hj.symm.trans hj')

theorem Dag.Handles.mem_tasks {d d' : Dag} {author : Author} (h : d.Handles author d') {t' : Task}
    (ht' : t' ∈ d'.tasks) : ∃ t ∈ d.tasks, Handled author t t' := by
  obtain ⟨i, hat⟩ := Dag.mem_tasks_iff.mp ht'
  obtain ⟨t, ht, hhandled⟩ := h.taskBefore hat
  exact ⟨t, ht.mem_tasks, hhandled⟩

/-- What a step sends out are tasks of the record as it leaves it. -/
theorem Dag.mem_tasks_of_batch {d : Dag} {n : Node} (hn : d.currentNode? = some n)
    {now : Timestamp} {move : Move} (hstep : d.step now = .ok move) {batch : Batch}
    (hbatch : move.batch = some batch) {t : Task} {targets : List Agent}
    (ht : (t, targets) ∈ batch) : t ∈ (move.write.getD d).tasks := by
  rw [Dag.step] at hstep
  cases hdirection : d.direction with
  | execute =>
    rw [hdirection] at hstep
    cases forward_cases hn hstep with
    | launch =>
      obtain rfl := Option.some.inj hbatch
      obtain ⟨hmem, -⟩ := mem_batchOf_iff.mp ht
      obtain ⟨i, -, hat⟩ := (mem_currentNode_iff (currentNode?_launched hn now)).mp hmem
      exact hat.mem_tasks
    | _ => cases hbatch
  | rollback =>
    rw [hdirection] at hstep
    cases unwind_cases hn hstep with
    | compensate =>
      obtain rfl := Option.some.inj hbatch
      obtain ⟨hmem, -⟩ := mem_batchOf_iff.mp ht
      obtain ⟨i, -, hat⟩ := (mem_currentNode_iff hn).mp hmem
      exact hat.mem_tasks
    | _ => cases hbatch

namespace Course

variable {registry : Registry} {spec : DagSpec} {ids : FreshIds} {s s' : Course} {d : Dag}
  {history : List Occurrence}

/-- The task has the agent and the parameters that were submitted for it, and the results that the
agent has brought. -/
def Carries (spec : DagSpec) (ids : FreshIds) (history : List Occurrence) (t : Task) : Prop :=
  ∃ u, spec.Names ids t.id u ∧ t.context = ⟨u.agent, u.params, carried t.id u.agent history⟩

/-- All tasks of a course carry what they should: those that are stored, those of the stage that is
out, and those that were sent. -/
structure Carrying (spec : DagSpec) (ids : FreshIds) (s : Course) : Prop where
  stored : ∀ t ∈ s.record.tasks, Carries spec ids s.history t
  out : ∀ b, s.loop = .barrier b → ∀ p ∈ b.sent ++ b.rest, Carries spec ids s.history p.2.task
  sent : ∀ a q earlier, .sent a q :: earlier <:+ s.history → Carries spec ids earlier q.task

theorem ChangesResultsOnly.of_suffix {earlier : List Occurrence} (h : ChangesResultsOnly history)
    (hsuffix : earlier <:+ history) : ChangesResultsOnly earlier := by
  induction history with
  | nil => rwa [List.suffix_nil.mp hsuffix]
  | cons o rest ih =>
    rcases List.suffix_cons_iff.mp hsuffix with rfl | hrest
    · exact h
    · refine ih ?_ hrest
      cases o with
      | sent => exact h
      | wrote author d =>
        cases author with
        | barrier => exact h.2
        | _ => exact h

/-- What the agent of a task answers about it has the agent and the parameters that were
submitted. -/
theorem ChangesResultsOnly.submitted {action : Action} {reports : List Report}
    (h : ChangesResultsOnly (.wrote (.barrier action reports) d :: history))
    (fresh : ids.DistinctFor spec)
    (sent : ∀ a q earlier, .sent a q :: earlier <:+ history → Carries spec ids earlier q.task)
    {id : TaskId} {u : TaskSpec} (hu : spec.Names ids id u) {r : Report} (hr : r ∈ reports)
    {o : Outcome} (houtcome : r.outcomeOf? id u.agent = some o) :
    o.context.executeAgent = u.agent ∧ o.context.params = u.params := by
  obtain ⟨rfl, hagent, hresult⟩ := Report.outcomeOf?_eq_some_iff.mp houtcome
  obtain ⟨q, hq, hid, hkeeps⟩ := h.1 r hr o hresult
  obtain ⟨later, earlier, hsplit⟩ := List.append_of_mem hq
  obtain ⟨u', hu', hcontext⟩ := sent r.agent q earlier ⟨later, hsplit.symm⟩
  obtain rfl := fresh.unique hu (hid ▸ hu')
  have hkept := hkeeps (by rw [Task.agent, hcontext, hagent])
  exact ⟨by rw [hkept.agent, hcontext], by rw [hkept.params, hcontext]⟩

/-- A task carries what it should after any author has handled it. -/
theorem Carries.handled {t t' : Task} (h : Carries spec ids history t) {author : Author}
    (hhandled : Handled author t t') (fresh : ids.DistinctFor spec)
    (sent : ∀ a q earlier, .sent a q :: earlier <:+ history → Carries spec ids earlier q.task)
    (changes : ChangesResultsOnly (.wrote author d :: history)) :
    Carries spec ids (.wrote author d :: history) t' := by
  obtain ⟨u, hu, hcontext⟩ := h
  have hid := Task.id_eq_of_identity hhandled.identity
  refine ⟨u, hid ▸ hu, ?_⟩
  rw [hhandled.context, hid]
  cases author with
  | barrier action reports =>
    have hsubmitted := fun r hr o => changes.submitted fresh sent hu (r := r) (o := o) hr
    have hexecute : t.context.executeAgent = u.agent := by rw [hcontext]
    rw [Author.contextAfter, TaskContext.foldl_adopting_eq (by
      rw [hexecute]
      exact fun r hr o houtcome => (hsubmitted r hr o houtcome).1), hexecute, carried]
    cases hlast : lastOutcome? reports t.id u.agent with
    | none => exact hcontext
    | some o =>
      obtain ⟨r, hr, houtcome⟩ := mem_of_lastOutcome hlast
      obtain ⟨hagent, hparams⟩ := hsubmitted r hr o (Report.outcomeOf?_eq_some_iff.mpr houtcome)
      simp only [Option.map_some, Option.getD_some, ← hagent, ← hparams]
  | _ => exact hcontext

theorem Carrying.stored_step (h : s.Carrying spec ids) (held : s.Held) (fresh : ids.DistinctFor spec)
    (step : s.Step s') (changes : ChangesResultsOnly s'.history) {t : Task}
    (ht : t ∈ s'.record.tasks) : Carries spec ids s'.history t := by
  cases held.turn step with
  | quiet record history =>
    rw [record] at ht
    exact history ▸ h.stored t ht
  | sent sending next record history =>
    rw [record] at ht
    rw [history]
    exact h.stored t ht
  | wrote origin history follows =>
    obtain ⟨u, hu, hhandled⟩ := (held.handles step history).mem_tasks ht
    rw [history] at changes ⊢
    exact (h.stored u hu).handled hhandled fresh h.sent changes

theorem Carrying.sent_step (h : s.Carrying spec ids) (held : s.Held) (step : s.Step s') {a : Agent}
    {q : DispatchRequest} {earlier : List Occurrence}
    (hsent : .sent a q :: earlier <:+ s'.history) : Carries spec ids earlier q.task := by
  cases held.turn step with
  | quiet record history => exact h.sent a q earlier (history ▸ hsent)
  | @sent b agent request rest sending next record history =>
    rw [history] at hsent
    rcases List.suffix_cons_iff.mp hsent with heq | hearlier
    · obtain ⟨hfirst, rfl⟩ := List.cons.inj heq
      obtain ⟨rfl, rfl⟩ := Occurrence.sent.inj hfirst
      exact h.out b sending (a, q) (by simp [next])
    · exact h.sent a q earlier hearlier
  | wrote origin history follows =>
    rw [history] at hsent
    rcases List.suffix_cons_iff.mp hsent with heq | hearlier
    · cases heq
    · exact h.sent a q earlier hearlier

/-- What is out after a step of the drive loop are tasks of the record that it leaves. -/
theorem mem_tasks_of_proceed {n : Node} (hn : s.record.currentNode? = some n) {now : Timestamp}
    {move : Move} (hstep : s.record.step now = .ok move) (later : Timestamp) {b : Barrier}
    (hb : (s.proceed move later).loop = .barrier b) {p : Agent × DispatchRequest}
    (hp : p ∈ b.sent ++ b.rest) : p.2.task ∈ (s.proceed move later).record.tasks := by
  have hbatch {record : Dag} (hloop : standingAfter record move.batch = .barrier b) :
      ∃ batch targets, move.batch = some batch ∧ (p.2.task, targets) ∈ batch := by
    cases hmade : move.batch with
    | none =>
      rw [hmade] at hloop
      cases hloop
    | some batch =>
      rw [hmade] at hloop
      obtain rfl := Standing.barrier.inj hloop
      obtain ⟨targets, hmem, -⟩ := Batch.mem_requests_iff.mp hp
      exact ⟨batch, targets, rfl, hmem⟩
  cases hwrite : move.write with
  | none =>
    simp only [Course.proceed, hwrite] at hb ⊢
    obtain ⟨batch, targets, hmade, hmem⟩ := hbatch hb
    have htask := Dag.mem_tasks_of_batch hn hstep hmade hmem
    rwa [hwrite] at htask
  | some record =>
    simp only [Course.proceed, hwrite] at hb ⊢
    obtain ⟨batch, targets, hmade, hmem⟩ := hbatch hb
    have htask := Dag.mem_tasks_of_batch hn hstep hmade hmem
    rwa [hwrite] at htask

/-- Whatever happens to a dag, its tasks carry what they should. -/
theorem Carrying.step (h : s.Carrying spec ids) (held : s.Held) (fresh : ids.DistinctFor spec)
    (step : s.Step s') (changes : ChangesResultsOnly s'.history) : s'.Carrying spec ids := by
  have hstored : ∀ t ∈ s'.record.tasks, Carries spec ids s'.history t :=
    fun t ht => h.stored_step held fresh step changes ht
  refine ⟨hstored, fun b hb p hp => ?_, fun a q earlier hsent => h.sent_step held step hsent⟩
  cases step with
  | proceed now later ready running hstep =>
    obtain ⟨n, hn⟩ := held.sound.shaped.currentNode
    exact hstored _ (mem_tasks_of_proceed hn hstep later hb hp)
  | @send b' agent request rest sending next =>
    obtain rfl := Standing.barrier.inj hb
    refine h.out b' sending p ?_
    rw [next]
    simpa using hp
  | @command operator record lines now later accepted =>
    have hloop : s.loop = .barrier b := by
      simp only [Course.write] at hb
      split at hb
      · exact hb
      · cases hloop : s.loop <;> simp_all [Standing.wake]
    exact h.out b hloop p hp
  | _ => cases hb

theorem Carrying.start {now : Timestamp} (built : spec.build registry ids now = .ok d) :
    (start d).Carrying spec ids where
  stored := by
    intro t ht
    obtain ⟨i, hat⟩ := Dag.mem_tasks_iff.mp ht
    obtain ⟨j, n, u, hn, hu, hmade⟩ := DagSpec.build_taskAt built hat
    obtain ⟨hid, -, -, hcontext⟩ := DagSpec.makeTask_eq_ok hmade
    exact ⟨u, ⟨i, j, n, hn, hu, hid⟩, hcontext⟩
  out := fun b hb => by cases hb
  sent := by
    intro a q earlier hsent
    rcases List.suffix_cons_iff.mp hsent with heq | hnil
    · cases heq
    · simp at hnil

theorem Held.history_suffix (h : s.Held) (step : s.Step s') : s.history <:+ s'.history := by
  cases h.turn step with
  | quiet record history => exact history ▸ List.suffix_rfl
  | sent sending next record history => exact history ▸ List.suffix_cons ..
  | wrote origin history follows => exact history ▸ List.suffix_cons ..

theorem carrying_of_run {now : Timestamp} (fresh : ids.DistinctFor spec)
    (built : spec.build registry ids now = .ok d) (run : ReflTransGen Step (Course.start d) s)
    (changes : ChangesResultsOnly s.history) : s.Carrying spec ids := by
  induction run with
  | refl => exact .start built
  | tail run step ih =>
    have hheld := (Lived.run (.submitted fresh built) run).held
    have hcarrying := ih (changes.of_suffix (hheld.history_suffix step))
    exact hcarrying.step hheld fresh step changes

/-- Where the agents change nothing of the contexts of their own tasks but the results, every request
carries the agent and the parameters that were submitted for its task, and the results of the last
outcome of this agent that was folded in before. And whatever the agents do, no context changes from
one record to the next but by such an outcome. -/
theorem contexts_carry_over {now : Timestamp} (fresh : ids.DistinctFor spec)
    (built : spec.build registry ids now = .ok d)
    (run : ReflTransGen Step (Course.start d) s) :
    (ChangesResultsOnly s.history → ∀ a q earlier, .sent a q :: earlier <:+ s.history →
      ∃ u, spec.Names ids q.task.id u ∧
        q.task.context = ⟨u.agent, u.params, carried q.task.id u.agent earlier⟩) ∧
      ∀ author before after earlier, .wrote author after :: earlier <:+ s.history →
        latest? earlier = some before → ∀ t' ∈ after.tasks, ∃ t ∈ before.tasks, t.id = t'.id ∧
          (t'.context = t.context ∨ ∃ action reports, author = .barrier action reports ∧
            ∃ r ∈ reports, r.task = t.id ∧ r.agent = t.agent ∧
              ∃ outcome, r.result = .ok outcome) := by
  refine ⟨fun changes => (carrying_of_run fresh built run changes).sent, ?_⟩
  intro author before after earlier hwrote hbefore t' ht'
  have hlived : s.Lived := Lived.run (.submitted fresh built) run
  obtain ⟨t, ht, hhandled⟩ := (hlived.handles_of_wrote hwrote hbefore).mem_tasks ht'
  refine ⟨t, ht, (Task.id_eq_of_identity hhandled.identity).symm, ?_⟩
  rw [hhandled.context]
  cases author with
  | barrier action reports =>
    refine (TaskContext.foldl_adopting_cases _ t.context).imp_right ?_
    rintro ⟨r, hr, hagent, houtcome⟩
    obtain ⟨hmem, hid⟩ := List.mem_filter.mp hr
    exact ⟨action, reports, rfl, r, hmem, by simpa using hid, hagent, houtcome⟩
  | _ => exact .inl rfl

end Course

/-! ## Agents that change results only -/

/-- The contexts differ in nothing but the results. -/
structure TaskContext.Resembles (c c' : TaskContext) : Prop where
  agent : c.executeAgent = c'.executeAgent
  params : c.params = c'.params

/-- Whatever the program does to its context leaves all but the results alone. -/
def Program.ChangesResultsOnly : Program → Prop
  | .done | .fail _ => True
  | .log _ next => next.ChangesResultsOnly
  | .change f next => (∀ c, (f c).Resembles c) ∧ next.ChangesResultsOnly
  | .look next => ∀ r, (next r).ChangesResultsOnly
  | .ask next => ∀ told, (next told).ChangesResultsOnly
  | .wait _ _ next told => next.ChangesResultsOnly ∧ told.ChangesResultsOnly

def Operation.ChangesResultsOnly (o : Operation) : Prop :=
  ∀ action call, (o.program action call).ChangesResultsOnly

theorem Timeline.contextAfter_cons (m : Moment) (t : Timeline) (c : TaskContext) :
    (t.cons m).contextAfter c = t.contextAfter (match m.deed with
      | .line _ => c
      | .context after => after) := rfl

theorem Program.ChangesResultsOnly.resembles {p : Program} (h : p.ChangesResultsOnly) (stop : Stop)
    (since : Nat) (now : Instant) (r : Run) :
    ((p.play stop since now r).contextAfter r.context).Resembles r.context := by
  induction p generalizing since now r with
  | done | fail => exact ⟨rfl, rfl⟩
  | log line next ih =>
    rw [play, Timeline.contextAfter_cons]
    exact ih h since now.next { r with lines := r.lines ++ [line] }
  | change f next ih =>
    rw [play, Timeline.contextAfter_cons]
    have hnext := ih h.2 since now.next { r with context := f r.context }
    exact ⟨hnext.agent.trans (h.1 _).agent, hnext.params.trans (h.1 _).params⟩
  | look next ih => exact ih r (h r) since now.next r
  | ask next ih => exact ih _ (h _) since now.next r
  | wait ms listens next told ihNext ihTold =>
    rw [play]
    split
    · exact ihNext h.1 ..
    · exact ihTold h.2 ..
    · exact ⟨rfl, rfl⟩
    · exact ⟨rfl, rfl⟩

theorem Registry.mem_of_find {registry : Registry} {name : String} {operation : Operation}
    (h : registry.find name = .ok operation) : (name, operation) ∈ registry.operations.rows := by
  rw [find] at h
  split at h
  · next hget =>
    obtain rfl := Except.ok.inj h
    exact Table.get?_eq_some_iff.1 hget
  · cases h

theorem Runner.resembles_contextAfter {registry : Registry}
    (changes : ∀ row ∈ registry.operations.rows, row.2.ChangesResultsOnly) (agent : Agent)
    (q : DispatchRequest) (call : Nat) (stop : Stop) :
    ((timeline registry agent q call stop).1.contextAfter q.task.context).Resembles
      q.task.context := by
  cases hrespond : respond registry agent q with
  | immediate line error =>
    simp only [timeline, hrespond]
    exact ⟨rfl, rfl⟩
  | runs operation =>
    have hknown : (q.task.typeName, operation) ∈ registry.operations.rows := by
      rw [respond] at hrespond
      split at hrespond
      · cases hrespond
      · next hfind =>
        split at hrespond
        · cases hrespond
          exact Registry.mem_of_find hfind
        · cases hrespond
    have hworked : ((worked operation agent q call stop).contextAfter q.task.context).Resembles
        q.task.context := by
      rw [worked]
      split
      · exact ⟨rfl, rfl⟩
      · exact (changes _ hknown q.action call).resembles stop 0 .start (start agent q)
    simp only [timeline, hrespond]
    split
    · rw [Timeline.contextAfter, List.foldl_append]
      exact hworked
    · exact hworked

/-- Where no operation of a peer changes more of its context than the results, the outcomes of the
peer leave the rest as it was sent. -/
theorem Peer.Answers.keeps {peer : Peer} {q : DispatchRequest} {o : Outcome} (h : peer.Answers q o)
    (changes : ∀ row ∈ peer.registry.operations.rows, row.2.ChangesResultsOnly) :
    o.Keeps q := by
  obtain ⟨call, stop, stamp, took, hrun⟩ := h
  obtain ⟨ending, -, hmade⟩ := Option.map_eq_some_iff.mp hrun
  obtain ⟨rfl, -⟩ := Prod.mk.inj hmade
  have hresembles := Runner.resembles_contextAfter changes peer.identity q call stop
  exact ⟨hresembles.agent, hresembles.params⟩

namespace Sample

/-! ## An attempt that fails, and another one -/

/-- An agent that takes part without doing any work. -/
def helper : Agent := ⟨"helper", 7000⟩

/-- A task with a parameter. -/
def farTask : TaskSpec := (TaskSpec.new "a" "steady" worker).param "goal" (.text "far")

def farSpec : DagSpec := ⟨"far", .standard, [⟨"only", [worker, helper], [farTask]⟩]⟩

def farDag : Dag :=
  match farSpec.build registry ids dawn with
  | .ok d => d
  | .error _ => default

def distance (reached : String) : Fields := .ofList [("reached", .text reached)]

/-- The worker fails and brings a result; the helper makes up a context of its own. -/
def farReports : List Report :=
  [⟨ids.task 0 0, worker, .ok ⟨ids.task 0 0, worker, .failed, some "too far",
      ⟨worker, farTask.params, distance "half"⟩, []⟩⟩,
   ⟨ids.task 0 0, helper, .ok ⟨ids.task 0 0, helper, .succeeded, none,
      ⟨helper, .empty, distance "nothing"⟩, []⟩⟩]

/-- The task fails, is retried, and goes out again. -/
def farTrip : List Happening :=
  [.proceed dawn dawn, .send, .send, .fold farReports dawn dawn, .proceed dawn dawn,
   .command .retry dawn dawn, .proceed dawn dawn, .send]

def far : Course := ((Course.start farDag).play? farTrip).getD (Course.start farDag)

/-- The request that goes out first, and the one that goes out after the retry. -/
def farRequest (results : Fields) : DispatchRequest := ⟨ids.dag, Dag.markRunning dawn
  ⟨ids.task 0 0, "a", "steady", ⟨worker, farTask.params, results⟩, .all, .pending, .empty, none,
    none⟩, .execute⟩

theorem fresh_far : ids.DistinctFor farSpec := ids.distinctFor_single rfl rfl

theorem changesResultsOnly_far : Course.ChangesResultsOnly far.history := by
  refine ⟨fun r hr outcome houtcome => ?_, trivial⟩
  obtain rfl | rfl : r = farReports[0] ∨ r = farReports[1] := by simpa [farReports] using hr
  · obtain rfl := Except.ok.inj houtcome
    exact ⟨farRequest .empty, .tail _ (.head _), rfl, fun _ => ⟨rfl, rfl⟩⟩
  · exact ⟨farRequest .empty, .head _, rfl, fun hown => absurd hown (by decide)⟩

end Sample

namespace Course

/-- What the worker has brought of the first attempt goes out with the second. -/
theorem contexts_carry_over_far :
    ChangesResultsOnly Sample.far.history ∧
      ∃ q earlier, .sent Sample.worker q :: earlier <:+ Sample.far.history ∧
        q.task.context
          = ⟨Sample.worker, Sample.farTask.params, Sample.distance "half"⟩ := by
  have hplay : (Course.start Sample.farDag).play? Sample.farTrip = some Sample.far := rfl
  have built : Sample.farSpec.build Sample.registry Sample.ids Sample.dawn = .ok Sample.farDag :=
    rfl
  have hnamed : Sample.farSpec.Names Sample.ids (Sample.ids.task 0 0) Sample.farTask :=
    ⟨0, 0, _, rfl, rfl, rfl⟩
  let q := Sample.farRequest (Sample.distance "half")
  obtain ⟨earlier, hhistory⟩ :
      ∃ earlier, Sample.far.history = .sent Sample.worker q :: earlier := ⟨_, rfl⟩
  have hsent : .sent Sample.worker q :: earlier <:+ Sample.far.history :=
    ⟨[], hhistory.symm⟩
  have hcarried : carried (Sample.ids.task 0 0) Sample.worker earlier
      = Sample.distance "half" := by
    obtain rfl : Sample.far.history.tail = earlier := by rw [hhistory]; rfl
    rfl
  obtain ⟨u, hu, hcontext⟩ := (contexts_carry_over Sample.fresh_far built (run_of_play hplay)).1
    Sample.changesResultsOnly_far Sample.worker q earlier hsent
  obtain rfl := Sample.fresh_far.unique hnamed hu
  exact ⟨Sample.changesResultsOnly_far, q, earlier, hsent, hcontext.trans (congrArg _ hcarried)⟩

end Course

end Stagewise
