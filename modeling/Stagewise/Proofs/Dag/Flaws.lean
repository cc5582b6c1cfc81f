import Mathlib.Data.List.DropRight
import Stagewise.Proofs.Course.Play
/-!
# The flaws of specifications

What is wrong with a specification, in the order of its text. A specification without flaws is
built, task by task and node by node as it stands there; any other is refused for the first of its
flaws.
-/

namespace Stagewise

/-- What is left of a name without the blanks at its ends is nothing just when it is blank. -/
theorem Text.trim_eq_empty_iff (s : String) : trim s = "" ↔ isBlankText s = true := by
  have hdrop (cs : List Char) : dropBlanks cs = [] ↔ ∀ c ∈ cs, isBlank c = true :=
    List.dropWhile_eq_nil_iff
  have hrest (cs : List Char) : (∀ c ∈ dropBlanks cs, isBlank c = true) ↔
      ∀ c ∈ cs, isBlank c = true := by
    rw [← hdrop, ← hdrop, dropBlanks, dropBlanks, List.dropWhile_idempotent]
  rw [trim, isBlankText, List.all_eq_true, ← String.toList_eq_nil_iff, String.toList_ofList,
    List.reverse_eq_nil_iff, hdrop]
  simpa using hrest s.toList

/-! ## Flaws -/

/-- The type of the task is not known. -/
def TaskSpec.flaws (r : Registry) (t : TaskSpec) : List EngineError :=
  if r.contains t.typeName then [] else [.unknownType t.typeName]

/-- A node has no tasks, or there are flaws in them. -/
def NodeSpec.flaws (r : Registry) (n : NodeSpec) : List EngineError :=
  if n.tasks = [] then [.invalidDag s!"node '{n.name}' has no tasks"]
  else n.tasks.flatMap (·.flaws r)

/-- All that is wrong with a specification, in the order of its text. -/
def DagSpec.flaws (r : Registry) (spec : DagSpec) : List EngineError :=
  (if Text.trim spec.name = "" then [.invalidDag "dag name must not be empty"] else []) ++
    (if spec.nodes = [] then [.invalidDag s!"dag '{spec.name}' has no nodes"] else []) ++
      spec.nodes.flatMap (·.flaws r)

/-! ## What a specification describes -/

/-- The task is the one that a specification describes, as it is before it has run. -/
structure TaskSpec.Describes (r : Registry) (spec : TaskSpec) (id : TaskId) (t : Task) : Prop where
  id : t.id = id
  name : t.name = spec.name
  typeName : t.typeName = spec.typeName
  agent : t.agent = spec.agent
  params : t.context.params = spec.params
  capabilities : r.capabilities spec.typeName = .ok t.capabilities
  status : t.status = .pending
  results : t.context.results = .empty
  agentResults : t.agentResults = .empty
  startedAt : t.startedAt = none
  finishedAt : t.finishedAt = none

/-- The node is the one that a specification describes, task by task. -/
structure NodeSpec.Describes (r : Registry) (spec : NodeSpec) (ids : Nat → TaskId) (n : Node) :
    Prop where
  name : n.name = spec.name
  participants : n.participants = spec.participants
  tasks : List.Forall₂ (fun (u, j) t => u.Describes r (ids j) t) spec.tasks.zipIdx n.tasks

/-- The dag is the one that a specification describes, node by node, at its first stage and not yet
started. -/
structure DagSpec.Describes (r : Registry) (spec : DagSpec) (ids : FreshIds) (now : Timestamp)
    (d : Dag) : Prop where
  id : d.id = ids.dag
  name : d.name = spec.name
  kind : d.kind = spec.kind
  nodes : List.Forall₂ (fun (s, i) n => s.Describes r (ids.task i) n) spec.nodes.zipIdx d.nodes
  stage : d.stage = 1
  maxStage : d.maxStage = spec.nodes.length
  status : d.status = .running
  operator : d.operator = .run
  version : d.version = 0
  createdAt : d.createdAt = now
  updatedAt : d.updatedAt = now

variable {r : Registry} {now : Timestamp}

theorem TaskSpec.flaws_eq_nil_iff {t : TaskSpec} : t.flaws r = [] ↔ r.contains t.typeName := by
  rw [flaws]
  split <;> simp [*]

theorem NodeSpec.flaws_eq_nil_iff {n : NodeSpec} :
    n.flaws r = [] ↔ n.tasks ≠ [] ∧ ∀ t ∈ n.tasks, r.contains t.typeName := by
  rw [flaws]
  split <;> simp [TaskSpec.flaws_eq_nil_iff, *]

theorem DagSpec.flaws_eq_nil_iff {spec : DagSpec} :
    spec.flaws r = [] ↔ Text.trim spec.name ≠ "" ∧ spec.nodes ≠ [] ∧
      ∀ n ∈ spec.nodes, n.tasks ≠ [] ∧ ∀ t ∈ n.tasks, r.contains t.typeName := by
  simp only [flaws, List.append_eq_nil_iff, ite_eq_right_iff, List.cons_ne_nil, imp_false,
    List.flatMap_eq_nil_iff, NodeSpec.flaws_eq_nil_iff, and_assoc]

namespace DagSpec

/-! ## Refusals -/

/-- The items of a list have numbers; where these make no difference, the first failure is that of
the items. -/
theorem failure?_mapM_zipIdx {α β : Type} {f : α → Nat → EngineResult β}
    {flaws : α → List EngineError} (h : ∀ a i, failure? (f a i) = (flaws a).head?) (l : List α) :
    failure? (l.zipIdx.mapM fun (a, i) => f a i) = (l.flatMap flaws).head? := by
  have hflaws : (fun p : α × Nat => failure? (f p.1 p.2)) = (fun a => (flaws a).head?) ∘ Prod.fst :=
    funext fun p => h p.1 p.2
  rw [failure?_mapM, hflaws, ← List.findSome?_map, List.zipIdx_map_fst, List.head?_flatMap]

theorem failure?_makeTask (r : Registry) (id : TaskId) (t : TaskSpec) :
    failure? (makeTask r id t) = (t.flaws r).head? := by
  rw [makeTask, failure?_bind, TaskSpec.flaws, Registry.capabilities, Registry.find,
    Registry.contains]
  cases r.get? t.typeName <;> rfl

theorem failure?_makeNode (r : Registry) (ids : Nat → TaskId) (n : NodeSpec) :
    failure? (makeNode r ids n) = (n.flaws r).head? := by
  rw [makeNode, NodeSpec.flaws]
  by_cases hempty : n.tasks = []
  · rw [if_pos (List.isEmpty_iff.2 hempty), if_pos hempty]
    rfl
  · have hnonempty : ¬ n.tasks.isEmpty = true := mt List.isEmpty_iff.1 hempty
    have htasks := failure?_mapM_zipIdx (fun t j => failure?_makeTask r (ids j) t) n.tasks
    rw [if_neg hnonempty, if_neg hempty, ← htasks, failure?_bind]
    cases n.tasks.zipIdx.mapM fun (t, j) => makeTask r (ids j) t <;> rfl

/-- A specification is refused for the first of its flaws, and for nothing else. -/
theorem failure?_build (spec : DagSpec) (r : Registry) (ids : FreshIds) (now : Timestamp) :
    failure? (spec.build r ids now) = (spec.flaws r).head? := by
  rw [build, flaws]
  by_cases hblank : Text.trim spec.name = ""
  · rw [if_pos ((Text.trim_eq_empty_iff _).1 hblank), if_pos hblank]
    rfl
  · rw [if_neg (mt (Text.trim_eq_empty_iff _).2 hblank), if_neg hblank, List.nil_append]
    by_cases hempty : spec.nodes = []
    · rw [if_pos (List.isEmpty_iff.2 hempty), if_pos hempty]
      rfl
    · have hnonempty : ¬ spec.nodes.isEmpty = true := mt List.isEmpty_iff.1 hempty
      have hnodes :=
        failure?_mapM_zipIdx (fun n i => failure?_makeNode r (ids.task i) n) spec.nodes
      rw [if_neg hnonempty, if_neg hempty, List.nil_append, ← hnodes, failure?_bind]
      cases spec.nodes.zipIdx.mapM fun (n, i) => makeNode r (ids.task i) n <;> rfl

/-! ## Success -/

theorem describes_of_makeTask {id : TaskId} {u : TaskSpec} {t : Task}
    (h : makeTask r id u = .ok t) : u.Describes r id t := by
  obtain ⟨capabilities, hcapabilities, h⟩ := bind_eq_ok h
  obtain rfl := Except.ok.inj h
  exact ⟨rfl, rfl, rfl, rfl, rfl, hcapabilities, rfl, rfl, rfl, rfl, rfl⟩

theorem describes_of_makeNode {ids : Nat → TaskId} {s : NodeSpec} {n : Node}
    (h : makeNode r ids s = .ok n) : s.Describes r ids n := by
  rw [makeNode] at h
  split at h
  · cases h
  · obtain ⟨tasks, htasks, h⟩ := bind_eq_ok h
    obtain rfl := Except.ok.inj h
    exact ⟨rfl, rfl, (mapM_eq_ok_iff.1 htasks).imp fun _ _ => describes_of_makeTask⟩

theorem describes_of_build {spec : DagSpec} {ids : FreshIds} {d : Dag}
    (h : spec.build r ids now = .ok d) : spec.Describes r ids now d := by
  rw [build] at h
  split at h
  · cases h
  split at h
  · cases h
  obtain ⟨nodes, hnodes, h⟩ := bind_eq_ok h
  obtain rfl := Except.ok.inj h
  have hall := mapM_eq_ok_iff.1 hnodes
  have hlen : nodes.length = spec.nodes.length := by simpa using hall.length_eq.symm
  exact ⟨rfl, rfl, rfl, hall.imp fun _ _ => describes_of_makeNode, rfl, hlen, rfl, rfl, rfl, rfl,
    rfl⟩

/-- A specification is built just when its name is not blank, it has nodes, every node has tasks,
and all types are known. Otherwise the first flaw in the order of its text is the error. What is
built is what the specification describes, and its tasks have distinct identifiers if the source of
identifiers gives distinct ones. -/
theorem build_describes (r : Registry) (spec : DagSpec) (ids : FreshIds) (now : Timestamp) :
    ((∃ d, spec.build r ids now = .ok d) ↔
        Text.trim spec.name ≠ "" ∧ spec.nodes ≠ [] ∧
          ∀ n ∈ spec.nodes, n.tasks ≠ [] ∧ ∀ t ∈ n.tasks, r.contains t.typeName) ∧
      (∀ e, spec.build r ids now = .error e ↔ (spec.flaws r).head? = some e) ∧
      ∀ d, spec.build r ids now = .ok d →
        spec.Describes r ids now d ∧ (ids.DistinctFor spec → d.Distinct) := by
  refine ⟨?_, fun e => ?_, fun d h => ⟨describes_of_build h, fun hids => build_distinct hids h⟩⟩
  · rw [← failure?_eq_none_iff, failure?_build, List.head?_eq_none_iff, flaws_eq_nil_iff]
  · rw [← failure?_eq_some_iff, failure?_build]

/-- A type that is not known comes before a node without tasks, if it stands before it; without the
two, the specification is built. -/
theorem build_describes_sample :
    build ⟨"sample", .standard,
        [⟨"first", [], [.new "a" "steady" Sample.worker, .new "b" "brisk" Sample.worker]⟩,
         ⟨"second", [], []⟩]⟩ Sample.registry Sample.ids Sample.dawn
      = .error (.unknownType "brisk") ∧
    Sample.spec.build Sample.registry Sample.ids Sample.dawn = .ok Sample.dag ∧
      Sample.dag.Distinct := by
  obtain ⟨-, hrefused, -⟩ := build_describes Sample.registry
    ⟨"sample", .standard,
      [⟨"first", [], [.new "a" "steady" Sample.worker, .new "b" "brisk" Sample.worker]⟩,
       ⟨"second", [], []⟩]⟩ Sample.ids Sample.dawn
  obtain ⟨-, -, hbuilt⟩ :=
    build_describes Sample.registry Sample.spec Sample.ids Sample.dawn
  exact ⟨(hrefused _).2 (by decide), rfl, (hbuilt Sample.dag rfl).2 Sample.fresh⟩

end DagSpec

end Stagewise
