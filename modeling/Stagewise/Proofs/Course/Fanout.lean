import Mathlib.Data.List.Nodup
import Stagewise.Proofs.Course.Barrier
import Stagewise.Proofs.Course.Play
/-!
# How often a task goes out

A task is sent once for every time an agent is listed among the participants of its node, and once
more to the agent that is to do the work if that one is not listed at all. The list is taken as it
was given. An agent that is listed twice is sent the task twice, and if it is the one that is to do
the work, then it does the work twice while the stage is out.
-/

namespace Stagewise

/-- How often a task is sent to an agent while a stage is out. -/
def Barrier.timesSent (b : Barrier) (id : TaskId) (a : Agent) : Nat :=
  (b.sent ++ b.rest).countP fun p => p.1 == a && p.2.task.id == id

/-- Whether an agent runs the operation of a task that is sent to it. -/
def Runner.performs (registry : Registry) (agent : Agent) (request : DispatchRequest) : Bool :=
  match respond registry agent request with
  | .immediate .. => false
  | .runs _ => true

/-- How often the operation of a task is run while a stage is out, when every agent goes by the name
it is addressed with. What types of operation an agent knows is a matter of its own. -/
def Barrier.timesRun (b : Barrier) (known : Agent → Registry) (id : TaskId) : Nat :=
  (b.sent ++ b.rest).countP fun p =>
    Runner.performs (known p.1) p.1 p.2 && p.2.task.id == id

theorem Runner.performs_iff {registry : Registry} {agent : Agent} {request : DispatchRequest} :
    performs registry agent request ↔
      agent = request.task.agent ∧ registry.contains request.task.typeName := by
  rw [performs, respond, Registry.find, Registry.contains]
  cases registry.get? request.task.typeName with
  | none => simp
  | some operation => by_cases hown : agent = request.task.agent <;> simp [hown]

/-! ## The targets of a task -/

theorem Node.count_targets (n : Node) (t : Task) (a : Agent) :
    (n.targets t).count a
      = if a = t.agent then max 1 (n.participants.count a) else n.participants.count a := by
  rw [targets]
  by_cases hlisted : t.agent ∈ n.participants
  · rw [if_pos hlisted]
    split
    · next hworker =>
      have hpos : 0 < n.participants.count a := List.count_pos_iff.mpr (hworker ▸ hlisted)
      omega
    · rfl
  · rw [if_neg hlisted, List.count_append]
    split
    · next hworker =>
      have hzero : n.participants.count a = 0 := List.count_eq_zero.mpr (hworker ▸ hlisted)
      have hone : [t.agent].count a = 1 := by simp [hworker]
      omega
    · next hother =>
      have hzero : [t.agent].count a = 0 := by simp [Ne.symm hother]
      omega

/-- No target is named twice just when no participant is: the agent that does the work is added only
if it is missing. -/
theorem Node.nodup_targets_iff {n : Node} {t : Task} :
    (n.targets t).Nodup ↔ n.participants.Nodup := by
  rw [targets]
  by_cases hlisted : t.agent ∈ n.participants
  · rw [if_pos hlisted]
  · rw [if_neg hlisted, List.nodup_append]
    constructor
    · exact fun h => h.1
    · intro h
      refine ⟨h, List.nodup_singleton _, fun a ha a' ha' hsame => ?_⟩
      rw [List.mem_singleton] at ha'
      exact hlisted (ha' ▸ hsame ▸ ha)

/-! ## The requests of a batch -/

namespace Batch

variable {batch : Batch} {t : Task} {targets : List Agent}

theorem requests_cons (entry : Task × List Agent) (batch : Batch) (dag : DagId) (action : Action) :
    Batch.requests (entry :: batch) dag action
      = entry.2.map (fun a => (a, ⟨dag, entry.1, action⟩)) ++ batch.requests dag action := rfl

/-- What a batch asks for about a task that is none of its own is nothing. -/
theorem countP_requests_of_notMem {id : TaskId} (hout : id ∉ batch.map (·.1.id)) (dag : DagId)
    (action : Action) (test : Agent × DispatchRequest → Bool) :
    (batch.requests dag action).countP (fun p => test p && p.2.task.id == id) = 0 := by
  refine List.countP_eq_zero.mpr ?_
  rintro ⟨a, q⟩ hq hcounted
  obtain ⟨targets, hbatch, -⟩ := mem_requests_iff.mp hq
  have hid : q.task.id = id := by simpa using (Bool.and_eq_true_iff.mp hcounted).2
  have hmem : q.task.id ∈ batch.map (·.1.id) :=
    List.mem_map.mpr ⟨(q.task, targets), hbatch, rfl⟩
  exact hout (hid ▸ hmem)

/-- What a batch asks for about one of its tasks, it asks of the targets of that task. -/
theorem countP_requests (distinct : (batch.map (·.1.id)).Nodup) (hmem : (t, targets) ∈ batch)
    (dag : DagId) (action : Action) (test : Agent × DispatchRequest → Bool) :
    (batch.requests dag action).countP (fun p => test p && p.2.task.id == t.id)
      = targets.countP fun a => test (a, ⟨dag, t, action⟩) := by
  induction batch with
  | nil => cases hmem
  | cons entry rest ih =>
    rw [List.map_cons, List.nodup_cons] at distinct
    obtain ⟨hfirst, hrest⟩ := distinct
    rw [requests_cons, List.countP_append, List.countP_map]
    rcases List.mem_cons.mp hmem with rfl | hlater
    · rw [countP_requests_of_notMem hfirst, Nat.add_zero]
      apply List.countP_congr
      intro a _
      simp
    · have hother : entry.1.id ≠ t.id := by
        intro hid
        have hagain : t.id ∈ rest.map (·.1.id) := List.mem_map.mpr ⟨_, hlater, rfl⟩
        exact hfirst (hid ▸ hagain)
      have hnone : entry.2.countP ((fun p : Agent × DispatchRequest =>
          test p && p.2.task.id == t.id) ∘ fun a => (a, ⟨dag, entry.1, action⟩)) = 0 := by
        refine List.countP_eq_zero.mpr fun a _ => ?_
        simp [hother]
      rw [hnone, Nat.zero_add]
      exact ih hrest hlater

end Batch

theorem Dag.nodup_batchOf_ids {n : Node} (distinct : (n.tasks.map (·.id)).Nodup)
    (due : Task → Bool) : ((batchOf n due).map (·.1.id)).Nodup := by
  have hids : (batchOf n due).map (·.1.id) = (n.tasks.filter due).map (·.id) := by
    rw [batchOf, List.map_map]
    rfl
  have hsome : (n.tasks.filter due).Sublist n.tasks := List.filter_sublist
  rw [hids]
  exact distinct.sublist (hsome.map _)

theorem Dag.Distinct.nodup_node_ids {d : Dag} (h : d.Distinct) {i : Nat} {n : Node}
    (hn : d.nodes[i]? = some n) : (n.tasks.map (·.id)).Nodup := by
  rw [Distinct, tasks, List.map_flatMap, List.nodup_flatMap] at h
  exact h.1 n (List.mem_of_getElem? hn)

/-! ## What is out -/

namespace Course

/-- The stage that is out is some of the tasks of a node, each sent to its targets. The participants
of the node are still those that the dag names at that place. -/
def SentToTargets (s : Course) (b : Barrier) : Prop :=
  ∃ (n m : Node) (due : Task → Bool) (dag : DagId), s.record.nodes[b.stage - 1]? = some n ∧
    n.participants = m.participants ∧ (m.tasks.map (·.id)).Nodup ∧
      b.sent ++ b.rest = (Dag.batchOf m due).requests dag b.action

variable {s : Course} {b : Barrier} {a : Agent} {q : DispatchRequest}

theorem Lived.sentToTargets (h : s.Lived) (hb : s.loop = .barrier b) : s.SentToTargets b := by
  refine h.barrier_induction (P := SentToTargets) ?launched ?unwound ?sent ?cancelled hb
  case launched =>
    intro s n now later hlived hr running hn
    have hshape := hlived.held.sound.shaped
    have hlaunched := (Dag.currentNode?_eq_some_iff.mp (Dag.currentNode?_launched hn now)).2
    have hdistinct : (s.record.modifyCurrent fun _ => Dag.launched n now).Distinct := by
      rw [Dag.launched_eq_mapAt hn]
      exact hshape.distinct.mapAt fun i t => by split <;> simp
    exact ⟨_, _, _, s.record.id, hlaunched, rfl, hdistinct.nodup_node_ids hlaunched, rfl⟩
  case unwound =>
    intro s n hlived hr running hn
    have hnode := (Dag.currentNode?_eq_some_iff.mp hn).2
    have hdistinct := hlived.held.sound.shaped.distinct
    exact ⟨n, n, _, s.record.id, hnode, rfl, hdistinct.nodup_node_ids hnode, rfl⟩
  case sent =>
    rintro s b a q rest - - hnext ⟨n, m, due, dag, hnode, hparticipants, hdistinct, hout⟩
    refine ⟨n, m, due, dag, hnode, hparticipants, hdistinct, ?_⟩
    rw [← hout, hnext]
    simp
  case cancelled =>
    rintro s b d later - - hfollows ⟨n, m, due, dag, hnode, hparticipants, hdistinct, hout⟩
    obtain ⟨n', hnode', hsame, -⟩ := hfollows.nodeAfter hnode
    exact ⟨n', m, due, dag, hnode', hsame.trans hparticipants, hdistinct, hout⟩

/-- Every task of a stage that is out is sent just as often as the node names the agent, and once to
the agent that is to do the work if it is not named. Its operation is run by that agent as often.
So each task is sent to every agent at most once just when no participant is named twice. -/
theorem sent_per_participant (h : s.Lived) (hb : s.loop = .barrier b)
    (hq : (a, q) ∈ b.sent ++ b.rest) :
    ∃ n, s.record.nodes[b.stage - 1]? = some n ∧
      (∀ agent, b.timesSent q.task.id agent
        = if agent = q.task.agent then max 1 (n.participants.count agent)
          else n.participants.count agent) ∧
      (∀ known, (known q.task.agent).contains q.task.typeName →
        b.timesRun known q.task.id = max 1 (n.participants.count q.task.agent)) ∧
      ((∀ agent, b.timesSent q.task.id agent ≤ 1) ↔ n.participants.Nodup) := by
  obtain ⟨n, m, due, dag, hnode, hparticipants, hdistinct, hout⟩ := h.sentToTargets hb
  have htargets : m.targets q.task = n.targets q.task := by
    rw [Node.targets, Node.targets, hparticipants]
  obtain ⟨targets, hbatch, -, hdag, haction⟩ := Batch.mem_requests_iff.mp (hout ▸ hq)
  obtain ⟨-, -, rfl⟩ := Dag.mem_batchOf_iff.mp hbatch
  have hcount := Batch.countP_requests (Dag.nodup_batchOf_ids hdistinct due) hbatch dag b.action
  rw [htargets] at hcount
  have hsent (agent : Agent) : b.timesSent q.task.id agent = (n.targets q.task).count agent := by
    rw [Barrier.timesSent, hout, hcount, List.count]
  have hrun (known : Agent → Registry)
      (hknown : (known q.task.agent).contains q.task.typeName) :
      b.timesRun known q.task.id = (n.targets q.task).count q.task.agent := by
    rw [Barrier.timesRun, hout, hcount, List.count]
    refine List.countP_congr fun agent _ => ?_
    rw [Runner.performs_iff, beq_iff_eq]
    constructor
    · exact fun hperforms => hperforms.1
    · rintro rfl
      exact ⟨rfl, hknown⟩
  refine ⟨n, hnode, fun agent => ?_, fun known hknown => ?_, ?_⟩
  · rw [hsent, n.count_targets]
  · rw [hrun known hknown, n.count_targets, if_pos rfl]
  · have hiff := Node.nodup_targets_iff (n := n) (t := q.task)
    rw [← hiff, List.nodup_iff_count_le_one]
    simp only [hsent]

end Course

namespace Sample

/-! ## A participant that is named twice -/

/-- A stage of one task in which the agent that is to do the work takes part twice. -/
def echoSpec : DagSpec :=
  ⟨"echo", .standard, [⟨"only", [worker, worker], [.new "a" "steady" worker]⟩]⟩

def echoDag : Dag :=
  match echoSpec.build registry ids dawn with
  | .ok d => d
  | .error _ => default

theorem fresh_echo : ids.DistinctFor echoSpec := ids.distinctFor_single rfl rfl

/-- The stage has been sent out, and both of its requests have gone. -/
def echo : Course :=
  ((Course.start echoDag).play? [.proceed dawn dawn, .send, .send]).getD (Course.start echoDag)

def echoBarrier : Barrier :=
  match echo.loop with
  | .barrier b => b
  | _ => ⟨.execute, 0, [], []⟩

def echoRequest : DispatchRequest := ⟨ids.dag, Dag.markRunning dawn
  ⟨ids.task 0 0, "a", "steady", TaskContext.new worker, .all, .pending, .empty, none, none⟩,
    .execute⟩

theorem lived_echo : echo.Lived := by
  have built : echoSpec.build registry ids dawn = .ok echoDag := rfl
  have hstart : (Course.start echoDag).Lived := .submitted fresh_echo built
  have hplay : (Course.start echoDag).play? [.proceed dawn dawn, .send, .send] = some echo := rfl
  exact hstart.play hplay

end Sample

namespace Course

/-- The specification was accepted, and the task is run twice while its stage is out. -/
theorem sent_per_participant_echo :
    Sample.echoSpec.build Sample.registry Sample.ids Sample.dawn = .ok Sample.echoDag ∧
      Sample.echo.Lived ∧ Sample.echo.loop = .barrier Sample.echoBarrier ∧
      Sample.echoBarrier.timesSent (Sample.ids.task 0 0) Sample.worker = 2 ∧
      Sample.echoBarrier.timesRun (fun _ => Sample.registry) (Sample.ids.task 0 0) = 2 := by
  have hloop : Sample.echo.loop = .barrier Sample.echoBarrier := rfl
  have hq : (Sample.worker, Sample.echoRequest) ∈
      Sample.echoBarrier.sent ++ Sample.echoBarrier.rest := List.mem_cons_self
  obtain ⟨n, hnode, hsent, hrun, -⟩ := sent_per_participant Sample.lived_echo hloop hq
  have hparticipants : n.participants = [Sample.worker, Sample.worker] := by
    have hfirst : Sample.echo.record.nodes[Sample.echoBarrier.stage - 1]?.map (·.participants)
        = some [Sample.worker, Sample.worker] := rfl
    rw [hnode] at hfirst
    exact Option.some.inj hfirst
  refine ⟨rfl, Sample.lived_echo, hloop, ?_, ?_⟩
  · have htwice := hsent Sample.worker
    rw [hparticipants] at htwice
    exact htwice
  · have htwice := hrun (fun _ => Sample.registry) rfl
    rw [hparticipants] at htwice
    exact htwice

end Course

end Stagewise
