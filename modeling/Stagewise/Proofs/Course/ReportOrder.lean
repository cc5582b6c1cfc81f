import Mathlib.Data.List.Perm.Basic
import Stagewise.Proofs.Agent
import Stagewise.Proofs.Course.Contexts
import Stagewise.Proofs.Table
/-!
# The order of reports

Reports are folded task by task, in whatever order the tasks are taken up, and those of one task in
the order in which they have arrived. While no agent reports a task twice and no agent hands the
work to another one, neither order matters, but for the words in which a failure is told.
-/

namespace Stagewise

/-- The line that is logged of a report, if it is an error. -/
def Report.line? (r : Report) : Option (TaskId × String) :=
  match r.result with
  | .ok _ => none
  | .error e => some (r.task, e.message)

/-- No agent reports a task twice. -/
def Once (reports : List Report) : Prop := (reports.map fun r => (r.task, r.agent)).Nodup

/-- The event without the words in which a failure of a task is told. -/
def EventType.unworded : EventType → EventType
  | .taskFailed id _ => .taskFailed id ""
  | event => event

/-- The event that is journaled when reports are folded into a task, without its words. -/
def Task.ending (t : Task) (reports : List Report) (action : Action) : EventType :=
  if ∃ r ∈ reports, r.task = t.id ∧ r.fails then .taskFailed t.id ""
  else match action with
    | .execute => .taskSucceeded t.id
    | .rollback => .taskRolledBack t.id

/-- What folding reports makes of a task. -/
structure Task.Takes (t : Task) (reports : List Report) (action : Action) (t' : Task) : Prop where
  identity : t'.identity = t.identity
  spared : (∀ r ∈ reports, r.task ≠ t.id) → t' = t
  failed_iff : (∃ r ∈ reports, r.task = t.id) →
    (t'.status = .failed ↔ ∃ r ∈ reports, r.task = t.id ∧ r.status = .failed)
  otherwise : (∃ r ∈ reports, r.task = t.id) → t'.status ≠ .failed → t'.status = action.success
  result : ∀ r ∈ reports, r.task = t.id → t'.agentResults.get? r.agent.text = some r.status
  others : ∀ key, (∀ r ∈ reports, r.task = t.id → r.agent.text ≠ key) →
    t'.agentResults.get? key = t.agentResults.get? key
  answered : ∀ r ∈ reports, r.task = t.id → r.agent = t.agent → ∀ o, r.result = .ok o →
    t'.context = o.context
  unanswered : (∀ r ∈ reports, r.task = t.id → r.agent = t.agent → ∀ o, r.result ≠ .ok o) →
    t'.context = t.context

/-- The same but for the order and the words of what is told. -/
structure Folded.Alike (f f' : Folded) : Prop where
  dag : f.dag = f'.dag
  events : (f.events.map (·.unworded)).Perm (f'.events.map (·.unworded))
  lines : f.lines.Perm f'.lines
  failure : f.failure.isSome = f'.failure.isSome

theorem Report.fails_iff {r : Report} : r.fails ↔ r.status = .failed := by
  rw [fails, status]
  cases r.result <;> simp

section Once

variable {reports reports' : List Report} {r r' : Report} {id : TaskId} {agent : Agent}
  {o : Outcome}

theorem Once.unique (h : Once reports) (hr : r ∈ reports) (hr' : r' ∈ reports)
    (htask : r.task = r'.task) (hagent : r.agent = r'.agent) : r = r' :=
  List.inj_on_of_nodup_map h hr hr' (Prod.ext htask hagent)

theorem Once.perm (h : Once reports) (hperm : reports'.Perm reports) : Once reports' :=
  (hperm.map _).nodup_iff.mpr h

/-- With one report of each agent, the last outcome is the only one. -/
theorem Once.lastOutcome?_eq_some_iff (h : Once reports) :
    lastOutcome? reports id agent = some o ↔
      ∃ r ∈ reports, r.task = id ∧ r.agent = agent ∧ r.result = .ok o := by
  refine ⟨mem_of_lastOutcome, fun ⟨r, hr, htask, hagent, hresult⟩ => ?_⟩
  have hmem : o ∈ reports.filterMap (·.outcomeOf? id agent) :=
    List.mem_filterMap.mpr ⟨r, hr, Report.outcomeOf?_eq_some_iff.mpr ⟨htask, hagent, hresult⟩⟩
  have hsome : lastOutcome? reports id agent
      = some ((reports.filterMap (·.outcomeOf? id agent)).getLast (List.ne_nil_of_mem hmem)) :=
    List.getLast?_eq_some_getLast _
  obtain ⟨r', hr', htask', hagent', hresult'⟩ := mem_of_lastOutcome hsome
  obtain rfl := h.unique hr hr' (htask.trans htask'.symm) (hagent.trans hagent'.symm)
  rw [hsome]
  exact congrArg some (Except.ok.inj (hresult'.symm.trans hresult))

theorem Once.lastOutcome?_perm (h : Once reports) (hperm : reports'.Perm reports) (id : TaskId)
    (agent : Agent) : lastOutcome? reports' id agent = lastOutcome? reports id agent := by
  ext o
  rw [(h.perm hperm).lastOutcome?_eq_some_iff, h.lastOutcome?_eq_some_iff]
  simp only [hperm.mem_iff]

/-- About one task, no agent is heard twice. -/
theorem Once.agents (h : Once reports) (id : TaskId) :
    ((reports.filter (·.task == id)).map (·.agent)).Nodup := by
  have hpairs := List.Nodup.of_map _ h
  refine (List.Nodup.map_on (fun r hr r' hr' hagent => ?_) (hpairs.filter _))
  obtain ⟨hmem, htask⟩ := List.mem_filter.mp hr
  obtain ⟨hmem', htask'⟩ := List.mem_filter.mp hr'
  exact h.unique hmem hmem' ((eq_of_beq htask).trans (eq_of_beq htask').symm) hagent

end Once

/-! ## The reports of one task -/

section Entered

variable {reports : List Report}

theorem Report.get?_foldl_entered_of_ne {key : String} (h : ∀ r ∈ reports, r.agent.text ≠ key)
    (results : Named TaskStatus) :
    (reports.foldl entered results).get? key = results.get? key := by
  induction reports generalizing results with
  | nil => rfl
  | cons r rest ih =>
    obtain ⟨hr, hrest⟩ := List.forall_mem_cons.mp h
    rw [List.foldl_cons, ih hrest, entered, Table.get?_insert_of_ne hr.symm]

/-- What an agent has reported stays entered while the others are. -/
theorem Report.get?_foldl_entered (h : (reports.map (·.agent)).Nodup) {r : Report}
    (hr : r ∈ reports) (results : Named TaskStatus) :
    (reports.foldl entered results).get? r.agent.text = some r.status := by
  induction reports generalizing results with
  | nil => cases hr
  | cons r' rest ih =>
    obtain ⟨hfirst, hrest⟩ := List.nodup_cons.mp h
    rw [List.foldl_cons]
    rcases List.mem_cons.mp hr with rfl | hr
    · have hother : ∀ u ∈ rest, u.agent.text ≠ r.agent.text := fun u hu hsame =>
        hfirst (List.mem_map.mpr ⟨u, hu, Agent.text_injective hsame⟩)
      rw [get?_foldl_entered_of_ne hother, entered, Table.get?_insert_self]
    · exact ih hrest hr _

theorem Report.foldl_entered_perm {reports' : List Report} (h : (reports.map (·.agent)).Nodup)
    (hperm : reports.Perm reports') (results : Named TaskStatus) :
    reports.foldl entered results = reports'.foldl entered results := by
  refine hperm.foldl_eq' (fun r hr r' hr' results => ?_) results
  by_cases hsame : r.agent = r'.agent
  · rw [List.inj_on_of_nodup_map h hr hr' hsame]
  · exact Table.insert_comm (Agent.text_injective.ne hsame) _ _ _

end Entered

theorem Folding.foldl_add_lines {id : TaskId} {reports : List Report}
    (h : ∀ r ∈ reports, r.task = id) (f : Folding) :
    (reports.foldl add f).lines.map (fun s => (id, s))
      = f.lines.map (fun s => (id, s)) ++ reports.filterMap (·.line?) := by
  induction reports generalizing f with
  | nil => simp
  | cons r rest ih =>
    obtain ⟨hr, hrest⟩ := List.forall_mem_cons.mp h
    rw [List.foldl_cons, ih hrest, List.filterMap_cons, Report.line?]
    cases hresult : r.result with
    | ok outcome =>
      have hlines : (f.add r).lines = f.lines := by
        simp only [add, hresult, adopt, enter, note]
        split <;> split <;> rfl
      rw [hlines]
    | error e =>
      have hlines : (f.add r).lines = f.lines ++ [e.message] := by
        simp only [add, hresult, enter, note]
      rw [hlines, hr, List.map_append, List.append_assoc]
      rfl

namespace Task

variable {reports reports' : List Report} {action : Action} {now : Timestamp} {t : Task}

theorem folding_lines (t : Task) (reports : List Report) :
    (t.folding reports).lines.map (fun s => (t.id, s))
      = (reports.filter (·.task == t.id)).filterMap (·.line?) :=
  Folding.foldl_add_lines (fun _ hr => by simpa using (List.mem_filter.mp hr).2) _

theorem folding_event (t : Task) (reports : List Report) (action : Action) :
    ((t.folding reports).event action).unworded = t.ending reports action := by
  have hid : (t.folding reports).task.id = t.id := id_eq_of_identity (Folding.foldl_add_identity ..)
  have hiff := t.folding_error_isSome_iff reports
  cases herror : (t.folding reports).error with
  | some e =>
    rw [herror] at hiff
    simp only [Folding.event, herror, EventType.unworded, ending, if_pos (hiff.mp rfl), hid]
  | none =>
    rw [herror] at hiff
    have hnone := mt hiff.mpr Bool.false_ne_true
    cases action <;>
      simp only [Folding.event, herror, EventType.unworded, ending, if_neg hnone, hid]

/-- While the work stays with its agent, the last outcome of this agent leaves its context. -/
theorem folded_context_eq (keeps : ∀ r ∈ reports, r.task = t.id → ∀ o, r.result = .ok o →
      o.context.executeAgent = t.agent) :
    (reports.filter (·.task == t.id)).foldl TaskContext.adopting t.context
      = ((lastOutcome? reports t.id t.agent).map (·.context)).getD t.context := by
  refine TaskContext.foldl_adopting_eq fun r hr o houtcome => ?_
  obtain ⟨htask, -, hresult⟩ := Report.outcomeOf?_eq_some_iff.mp houtcome
  exact keeps r hr htask o hresult

/-- A task is folded alike, in whatever order its reports have arrived. -/
theorem folded_perm (once : Once reports)
    (keeps : ∀ r ∈ reports, r.task = t.id → ∀ o, r.result = .ok o →
      o.context.executeAgent = t.agent) (hperm : reports'.Perm reports) :
    t.folded reports' action now = t.folded reports action now := by
  have hentered := Report.foldl_entered_perm ((once.perm hperm).agents t.id) (hperm.filter _)
    t.agentResults
  have keeps' := fun r hr => keeps r (hperm.mem_iff.mp hr)
  simp only [folded_eq, folded_context_eq keeps, folded_context_eq keeps',
    once.lastOutcome?_perm hperm, hentered, hperm.mem_iff]

theorem takes_folded (once : Once reports)
    (keeps : ∀ r ∈ reports, r.task = t.id → ∀ o, r.result = .ok o →
      o.context.executeAgent = t.agent) :
    t.Takes reports action
      (if ∃ r ∈ reports, r.task = t.id then t.folded reports action now else t) := by
  by_cases hreported : ∃ r ∈ reports, r.task = t.id
  · rw [if_pos hreported]
    have hcontext := t.folded_context reports action now
    rw [folded_context_eq keeps] at hcontext
    have hresults : (t.folded reports action now).agentResults
        = (reports.filter (·.task == t.id)).foldl Report.entered t.agentResults := by
      rw [folded_eq]
    constructor
    case identity => exact t.folded_identity ..
    case spared =>
      obtain ⟨r, hr, htask⟩ := hreported
      exact fun hnone => absurd htask (hnone r hr)
    case failed_iff =>
      intro _
      simp only [folded_status, Report.fails_iff, ite_eq_left_iff, action.success_ne_failed,
        imp_false, not_not]
    case otherwise =>
      intro _ hstatus
      rw [folded_status] at hstatus ⊢
      exact if_neg fun hfails => hstatus (if_pos hfails)
    case result =>
      intro r hr htask
      rw [hresults]
      exact Report.get?_foldl_entered (once.agents t.id)
        (List.mem_filter.mpr ⟨hr, beq_iff_eq.mpr htask⟩) _
    case others =>
      intro key hkey
      rw [hresults]
      refine Report.get?_foldl_entered_of_ne (fun r hr => ?_) _
      obtain ⟨hmem, htask⟩ := List.mem_filter.mp hr
      exact hkey r hmem (eq_of_beq htask)
    case answered =>
      intro r hr htask hagent o hresult
      rw [hcontext, once.lastOutcome?_eq_some_iff.mpr ⟨r, hr, htask, hagent, hresult⟩]
      rfl
    case unanswered =>
      intro hnone
      rw [hcontext]
      cases hlast : lastOutcome? reports t.id t.agent with
      | none => rfl
      | some o =>
        obtain ⟨r, hr, htask, hagent, hresult⟩ := mem_of_lastOutcome hlast
        exact absurd hresult (hnone r hr htask hagent o)
  · rw [if_neg hreported]
    have hnone : ∀ r ∈ reports, r.task ≠ t.id := fun r hr htask => hreported ⟨r, hr, htask⟩
    exact ⟨rfl, fun _ => rfl, fun h => absurd h hreported, fun h => absurd h hreported,
      fun r hr htask => absurd htask (hnone r hr), fun _ _ => rfl,
      fun r hr htask => absurd htask (hnone r hr), fun _ => rfl⟩

end Task

/-! ## The tasks one after another -/

namespace Folded

theorem addTask_of_task? {f : Folded} {id : TaskId} {t : Task} (h : f.dag.task? id = some t)
    (action : Action) (now : Timestamp) (reports : List Report) :
    (f.addTask action now reports id).events
        = f.events ++ [(t.folding reports).event action] ∧
      (f.addTask action now reports id).lines
        = f.lines ++ (reports.filter (·.task == t.id)).filterMap (·.line?) := by
  obtain rfl := Dag.id_of_task? h
  rw [← t.folding_lines]
  simp only [addTask, h, Task.folding, and_self]

end Folded

namespace Dag

variable {action : Action} {now : Timestamp} {reports : List Report} {d : Dag}

theorem task?_mapTasks (d : Dag) {g : Task → Task} (hg : ∀ t, (g t).id = t.id) (id : TaskId) :
    (d.mapTasks g).task? id = (d.task? id).map g := by
  simp only [task?, mapTasks_tasks, List.find?_map, Function.comp_def, hg]

theorem task?_addTask_of_ne {f : Folded} (h : f.dag.Distinct) {id other : TaskId}
    (hne : other ≠ id) : (f.addTask action now reports id).dag.task? other = f.dag.task? other := by
  rw [addTask_dag h, task?_mapTasks _ fun t => by split <;> simp]
  cases hfind : f.dag.task? other with
  | none => rfl
  | some t =>
    rw [Option.map_some, if_neg ((id_of_task? hfind).symm ▸ hne)]

/-- What is told of the tasks that are taken up, one after another. -/
theorem foldl_addTask_told {ids : List TaskId} (hids : ids.Nodup) {f : Folded}
    (h : f.dag.Distinct) :
    (ids.foldl (Folded.addTask action now reports) f).events
        = f.events ++ (ids.filterMap f.dag.task?).map (fun t => (t.folding reports).event action) ∧
      (ids.foldl (Folded.addTask action now reports) f).lines
        = f.lines ++ (ids.filterMap f.dag.task?).flatMap fun t =>
          (reports.filter (·.task == t.id)).filterMap (·.line?) := by
  induction ids generalizing f with
  | nil => simp
  | cons id rest ih =>
    obtain ⟨hid, hrest⟩ := List.nodup_cons.mp hids
    have hfound : rest.filterMap (f.addTask action now reports id).dag.task?
        = rest.filterMap f.dag.task? :=
      List.filterMap_congr fun other hother =>
        task?_addTask_of_ne h (ne_of_mem_of_not_mem hother hid)
    obtain ⟨hevents, hlines⟩ := ih hrest (h.addTask action now reports id)
    rw [List.foldl_cons, hevents, hlines, hfound, List.filterMap_cons]
    cases hfind : f.dag.task? id with
    | none => simp only [Folded.addTask, hfind, and_self]
    | some t =>
      obtain ⟨hevent, hline⟩ := Folded.addTask_of_task? hfind action now reports
      rw [hevent, hline]
      simp

/-- The tasks that are taken up are those of the dag that are named. -/
theorem filterMap_task?_perm (h : d.Distinct) {ids : List TaskId} (hids : ids.Nodup) :
    (ids.filterMap d.task?).Perm (d.tasks.filter fun t => t.id ∈ ids) := by
  have hinjective : ∀ id id' : TaskId, ∀ t ∈ d.task? id, t ∈ d.task? id' → id = id' :=
    fun id id' t ht ht' =>
      ((task?_eq_some_iff h).mp ht).2.symm.trans ((task?_eq_some_iff h).mp ht').2
  have htasks : d.tasks.Nodup := List.Nodup.of_map _ h
  rw [List.perm_ext_iff_of_nodup (hids.filterMap hinjective) (htasks.filter _)]
  intro t
  simp only [List.mem_filterMap, task?_eq_some_iff h, List.mem_filter, decide_eq_true_eq]
  constructor
  · rintro ⟨id, hid, ht, rfl⟩
    exact ⟨ht, hid⟩
  · rintro ⟨ht, hid⟩
    exact ⟨t.id, hid, ht, rfl⟩

/-- Reports taken task by task are those about these tasks. -/
theorem flatMap_reports_perm {tasks : List Task} (h : (tasks.map (·.id)).Nodup)
    (reports : List Report) :
    (tasks.flatMap fun t => reports.filter (·.task == t.id)).Perm
      (reports.filter fun r => r.task ∈ tasks.map (·.id)) := by
  induction tasks with
  | nil => simp
  | cons t rest ih =>
    obtain ⟨hid, hrest⟩ := List.nodup_cons.mp h
    -- The reports about any of the tasks are those about the first one and the others.
    let named := reports.filter fun r => r.task ∈ (t :: rest).map (·.id)
    have hfirst : named.filter (·.task == t.id) = reports.filter (·.task == t.id) := by
      rw [List.filter_filter]
      refine List.filter_congr fun r _ => ?_
      grind
    have hothers : named.filter (!·.task == t.id)
        = reports.filter fun r => r.task ∈ rest.map (·.id) := by
      rw [List.filter_filter]
      refine List.filter_congr fun r _ => ?_
      grind
    rw [List.flatMap_cons]
    refine ((ih hrest).append_left _).trans ?_
    rw [← hfirst, ← hothers]
    exact List.filter_append_perm _ named

section FoldedIn

variable {ids : List TaskId}

/-- Of every reported task its ending is told. -/
theorem foldedIn_events (h : d.Distinct) (hids : ids.Perm ((reports.map (·.task)).eraseDups)) :
    ((d.foldedIn ids reports action now).events.map (·.unworded)).Perm
      ((d.tasks.filter fun t => ∃ r ∈ reports, r.task = t.id).map (·.ending reports action)) := by
  have htasks := filterMap_task?_perm h (nodup_of_taken hids)
  simp only [mem_of_taken hids] at htasks
  rw [foldedIn, (foldl_addTask_told (nodup_of_taken hids) h).1, List.nil_append, List.map_map]
  simp only [Function.comp_def, Task.folding_event]
  exact htasks.map _

/-- Every error that is reported of a task of the dag is logged. -/
theorem foldedIn_lines (h : d.Distinct) (hids : ids.Perm ((reports.map (·.task)).eraseDups)) :
    (d.foldedIn ids reports action now).lines.Perm
      ((reports.filter fun r => r.task ∈ d.tasks.map (·.id)).filterMap (·.line?)) := by
  let taken := d.tasks.filter fun t => t.id ∈ ids
  have htasks : (ids.filterMap d.task?).Perm taken := filterMap_task?_perm h (nodup_of_taken hids)
  have htaken : (taken.map (·.id)).Nodup := h.sublist (List.filter_sublist.map _)
  have hnamed : (reports.filter fun r => r.task ∈ taken.map (·.id))
      = reports.filter fun r => r.task ∈ d.tasks.map (·.id) := by
    refine List.filter_congr fun r hr => ?_
    have hid : r.task ∈ ids := (mem_of_taken hids).mpr ⟨r, hr, rfl⟩
    grind
  rw [foldedIn, (foldl_addTask_told (nodup_of_taken hids) h).2, List.nil_append,
    ← List.filterMap_flatMap, ← hnamed]
  refine List.Perm.filterMap _ ?_
  exact (htasks.flatMap_right _).trans (flatMap_reports_perm htaken reports)

end FoldedIn

/-- The order of the reports and the order in which the tasks are taken up do not matter, when no
agent reports a task twice and the outcomes leave every task to its agent: the dag becomes the same,
and the same is told up to the order and the words. The ending is told of every task that is
reported and every error is logged; and the tasks take what is reported of them. -/
theorem reports_in_any_order {d : Dag} {reports : List Report} (distinct : d.Distinct)
    (once : Once reports)
    (keeps : ∀ t ∈ d.tasks, ∀ r ∈ reports, r.task = t.id → ∀ o, r.result = .ok o →
      o.context.executeAgent = t.agent) (action : Action) (now : Timestamp) :
    (∀ reports' ids, reports'.Perm reports → ids.Perm ((reports'.map (·.task)).eraseDups) →
        (d.foldedIn ids reports' action now).Alike (d.applyReports reports action now)) ∧
      ((d.applyReports reports action now).events.map (·.unworded)).Perm
        ((d.tasks.filter fun t => ∃ r ∈ reports, r.task = t.id).map (·.ending reports action)) ∧
      (d.applyReports reports action now).lines.Perm
        ((reports.filter fun r => r.task ∈ d.tasks.map (·.id)).filterMap (·.line?)) ∧
      ∃ g, (d.applyReports reports action now).dag = d.mapTasks g ∧
        ∀ t ∈ d.tasks, t.Takes reports action (g t) := by
  have hself : ((reports.map (·.task)).eraseDups).Perm ((reports.map (·.task)).eraseDups) := .rfl
  refine ⟨fun reports' ids hperm hids => ?_, foldedIn_events distinct hself,
    foldedIn_lines distinct hself, _, applyReports_dag distinct reports action now,
    fun t ht => Task.takes_folded once (keeps t ht)⟩
  have hending : ∀ t : Task, t.ending reports' action = t.ending reports action := fun t => by
    simp only [Task.ending, hperm.mem_iff]
  constructor
  case dag =>
    rw [foldedIn_dag distinct hids, applyReports_dag distinct]
    refine mapTasks_congr fun t ht => ?_
    simp only [Task.folded_perm once (keeps t ht) hperm, hperm.mem_iff]
  case events =>
    refine (foldedIn_events distinct hids).trans (.trans ?_ (foldedIn_events distinct hself).symm)
    simp only [hperm.mem_iff, hending]
    exact .rfl
  case lines =>
    refine (foldedIn_lines distinct hids).trans (.trans ?_ (foldedIn_lines distinct hself).symm)
    exact (hperm.filter _).filterMap _
  case failure =>
    refine Bool.eq_iff_iff.mpr ((foldedIn_failure_isSome distinct hids).trans ?_)
    simp only [hperm.mem_iff]
    exact (foldedIn_failure_isSome distinct hself).symm

end Dag

namespace Sample

/-- The worker has done both tasks, the first with a result; the helper is out of reach. -/
def mixedReports : List Report :=
  [⟨ids.task 0 0, worker, .ok ⟨ids.task 0 0, worker, .succeeded, none,
      ⟨worker, .empty, distance "there"⟩, []⟩⟩,
   report (ids.task 0 1) .succeeded,
   ⟨ids.task 0 0, helper, .error (.dispatch helper.text "out of reach")⟩]

end Sample

namespace Dag

/-- The task that the helper has missed fails, and keeps what the worker has brought, whichever
comes first. -/
theorem reports_in_any_order_mixed :
    (Sample.dag.foldedIn [Sample.ids.task 0 1, Sample.ids.task 0 0] Sample.mixedReports.reverse
        .execute Sample.dawn).Alike
      (Sample.dag.applyReports Sample.mixedReports .execute Sample.dawn) ∧
      ∃ t ∈ (Sample.dag.applyReports Sample.mixedReports .execute Sample.dawn).dag.tasks,
        t.id = Sample.ids.task 0 0 ∧ t.status = .failed ∧
          t.agentResults.get? Sample.worker.text = some .succeeded ∧
          t.context.results = Sample.distance "there" := by
  have built : Sample.spec.build Sample.registry Sample.ids Sample.dawn = .ok Sample.dag := rfl
  have once : Once Sample.mixedReports := by rw [Once]; decide
  have hagents : ∀ t ∈ Sample.dag.tasks, t.agent = Sample.worker := by decide
  have keeps : ∀ t ∈ Sample.dag.tasks, ∀ r ∈ Sample.mixedReports, r.task = t.id → ∀ o,
      r.result = .ok o → o.context.executeAgent = t.agent := by
    intro t ht r hr _ o hresult
    rw [hagents t ht]
    simp only [Sample.mixedReports, List.mem_cons, List.not_mem_nil, or_false] at hr
    rcases hr with rfl | rfl | rfl
    · rw [← Except.ok.inj hresult]
    · rw [← Except.ok.inj hresult]
      rfl
    · cases hresult
  obtain ⟨halike, -, -, g, hdag, htakes⟩ :=
    reports_in_any_order (DagSpec.build_distinct Sample.fresh built) once keeps .execute Sample.dawn
  refine ⟨halike _ _ (List.reverse_perm _) ?_, ?_⟩
  · decide
  · obtain ⟨t, ht, hid⟩ : ∃ t ∈ Sample.dag.tasks, t.id = Sample.ids.task 0 0 := by decide
    have htaken := htakes t ht
    have hown : Sample.mixedReports[0] ∈ Sample.mixedReports := List.mem_cons_self
    refine ⟨g t, by rw [hdag, mapTasks_tasks]; exact List.mem_map_of_mem ht, ?_, ?_, ?_, ?_⟩
    · rw [Task.id_eq_of_identity htaken.identity, hid]
    · exact (htaken.failed_iff ⟨_, hown, hid.symm⟩).mpr
        ⟨Sample.mixedReports[2], List.getElem_mem _, hid.symm, rfl⟩
    · exact htaken.result _ hown hid.symm
    · rw [htaken.answered _ hown hid.symm (hagents t ht).symm _ rfl]

end Dag

end Stagewise
