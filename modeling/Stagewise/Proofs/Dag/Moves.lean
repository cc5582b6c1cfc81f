import Mathlib.Tactic.ByContra
import Stagewise.Proofs.Dag.Node
import Stagewise.Proofs.Dag.Place
import Stagewise.Proofs.Results
/-!
# The moves of a drive loop

Everything that a step of a drive loop can come to, with the condition under which it does. Later
statements about steps look at these cases and never at the step itself.
-/

namespace Stagewise

namespace Dag

theorem current_eq_ok_iff {d : Dag} {n : Node} : d.current = .ok n ↔ d.currentNode? = some n := by
  rw [current]
  cases d.currentNode? with
  | none => simp
  | some m => simp

theorem currentNode?_eq_some_iff {d : Dag} {n : Node} :
    d.currentNode? = some n ↔ 0 < d.stage ∧ d.nodes[d.stage - 1]? = some n := by
  simp [currentNode?, Nat.pos_iff_ne_zero]

theorem mem_currentNode_iff {d : Dag} {n : Node} (h : d.currentNode? = some n) {t : Task} :
    t ∈ n.tasks ↔ ∃ i, i + 1 = d.stage ∧ d.TaskAt i t := by
  obtain ⟨hpos, hn⟩ := currentNode?_eq_some_iff.mp h
  constructor
  · exact fun ht => ⟨d.stage - 1, by omega, n, hn, ht⟩
  · rintro ⟨i, hi, m, hm, ht⟩
    have hpred : d.stage - 1 = i := by omega
    rw [hpred, hm, Option.some.injEq] at hn
    exact hn ▸ ht

theorem mem_batchOf_iff {n : Node} {p : Task → Bool} {t : Task} {targets : List Agent} :
    (t, targets) ∈ batchOf n p ↔ t ∈ n.tasks ∧ p t = true ∧ targets = n.targets t := by
  simp only [batchOf, List.mem_map, List.mem_filter, Prod.mk.injEq]
  constructor
  · rintro ⟨u, ⟨hu, hp⟩, rfl, rfl⟩
    exact ⟨hu, hp, rfl⟩
  · rintro ⟨ht, hp, rfl⟩
    exact ⟨t, ⟨ht, hp⟩, rfl, rfl⟩

theorem batchOf_eq_nil_iff {n : Node} {p : Task → Bool} :
    batchOf n p = [] ↔ ∀ t ∈ n.tasks, p t = false := by
  simp [batchOf, List.filter_eq_nil_iff]

/-- The node with its tasks on their way. -/
def launched (n : Node) (now : Timestamp) : Node :=
  { n with tasks := n.tasks.map (markRunning now) }

/-- The tasks of a node that a step forward sends out. -/
def launchBatch (n : Node) (now : Timestamp) : Batch :=
  batchOf (launched n now) fun t => t.status == .running

/-- The moves forward of a dag from its node at work. -/
inductive Forward (d : Dag) (n : Node) (now : Timestamp) : Move → Prop where
  | advance (done : ∀ t ∈ n.tasks, t.status.isDone) (more : d.stage < d.maxStage) :
      Forward d n now
        ⟨some { d with stage := d.stage + 1 }, [.stageAdvanced d.stage (d.stage + 1)], none⟩
  | finish (done : ∀ t ∈ n.tasks, t.status.isDone) (last : d.maxStage ≤ d.stage) :
      Forward d n now ⟨some { d with status := .succeeded }, [.dagSucceeded], none⟩
  | park (failed : ∃ t ∈ n.tasks, t.status = .failed) :
      Forward d n now ⟨some { d with status := .failed },
        [.dagFailed d.stage (failureText n)], none⟩
  | stuck (sound : ∀ t ∈ n.tasks, t.status ≠ .failed) (left : ∃ t ∈ n.tasks, ¬ t.status.isDone)
      (idle : launchBatch n now = []) (message : String) :
      Forward d n now
        ⟨some { d.modifyCurrent fun _ => launched n now with status := .failed },
          [.dagFailed d.stage message], none⟩
  | launch (sound : ∀ t ∈ n.tasks, t.status ≠ .failed) (left : ∃ t ∈ n.tasks, ¬ t.status.isDone)
      (busy : launchBatch n now ≠ []) :
      Forward d n now
        ⟨some (d.modifyCurrent fun _ => launched n now), [.stageStarted d.stage n.name],
          some (launchBatch n now)⟩

theorem forward_cases {d : Dag} {n : Node} (hn : d.currentNode? = some n) {now : Timestamp}
    {m : Move} (h : d.forward now = .ok m) : d.Forward n now m := by
  rw [forward, current_eq_ok_iff.mpr hn] at h
  simp only [bind, Except.bind] at h
  by_cases hdone : n.status.isDone = true
  · have hall := Node.status_isDone_iff.mp hdone
    by_cases hmore : d.stage < d.maxStage
    · rw [if_pos hdone, if_pos hmore] at h
      obtain rfl := Except.ok.inj h
      exact .advance hall hmore
    · rw [if_pos hdone, if_neg hmore] at h
      obtain rfl := Except.ok.inj h
      exact .finish hall (Nat.le_of_not_lt hmore)
  · rw [if_neg hdone] at h
    by_cases hfailed : n.status = .failed
    · rw [if_pos (by simpa using hfailed)] at h
      obtain rfl := Except.ok.inj h
      exact .park (Node.status_eq_failed_iff.mp hfailed)
    · rw [if_neg (by simpa using hfailed)] at h
      have hsound : ∀ t ∈ n.tasks, t.status ≠ .failed :=
        fun t ht hs => hfailed (Node.status_eq_failed_iff.mpr ⟨t, ht, hs⟩)
      have hleft : ∃ t ∈ n.tasks, ¬ t.status.isDone := by
        by_contra hnone
        refine hdone (Node.status_isDone_iff.mpr fun t ht => ?_)
        by_contra hopen
        exact hnone ⟨t, ht, hopen⟩
      change (if (launchBatch n now).isEmpty = true then _ else _) = _ at h
      by_cases hidle : launchBatch n now = []
      · rw [if_pos (List.isEmpty_iff.mpr hidle)] at h
        obtain rfl := Except.ok.inj h
        exact .stuck hsound hleft hidle _
      · rw [if_neg (mt List.isEmpty_iff.mp hidle)] at h
        obtain rfl := Except.ok.inj h
        exact .launch hsound hleft hidle

/-- The tasks of a node that a step of a rollback sends out. -/
def unwindBatch (n : Node) : Batch := batchOf n fun t => t.status.isExecuted

/-- The moves of a rollback from the node at work. -/
inductive Unwind (d : Dag) (n : Node) : Move → Prop where
  | compensate (busy : unwindBatch n ≠ []) : Unwind d n ⟨none, [], some (unwindBatch n)⟩
  | stepBack (idle : unwindBatch n = []) (more : 1 < d.stage) :
      Unwind d n ⟨some { d with stage := d.stage - 1 }, [.stageRolledBack d.stage n.name], none⟩
  | finish (idle : unwindBatch n = []) (last : d.stage ≤ 1) :
      Unwind d n ⟨some { d with status := .failed },
        [.stageRolledBack d.stage n.name, .dagRolledBack], none⟩

theorem unwind_cases {d : Dag} {n : Node} (hn : d.currentNode? = some n) {m : Move}
    (h : d.unwind = .ok m) :
    d.Unwind n m := by
  rw [unwind, current_eq_ok_iff.mpr hn] at h
  simp only [bind, Except.bind] at h
  change (if (!(unwindBatch n).isEmpty) = true then pure (⟨none, [], some (unwindBatch n)⟩ : Move)
    else _) = _ at h
  by_cases hidle : unwindBatch n = []
  · rw [if_neg (by simp [hidle])] at h
    by_cases hmore : 1 < d.stage
    · rw [if_pos hmore] at h
      obtain rfl := Except.ok.inj h
      exact .stepBack hidle hmore
    · rw [if_neg hmore] at h
      obtain rfl := Except.ok.inj h
      exact .finish hidle (Nat.le_of_not_lt hmore)
  · rw [if_pos (by simp [hidle])] at h
    obtain rfl := Except.ok.inj h
    exact .compensate hidle

theorem exists_forward {d : Dag} {n : Node} (hn : d.currentNode? = some n) (now : Timestamp) :
    ∃ move, d.forward now = .ok move := by
  cases hforward : d.forward now with
  | ok move => exact ⟨move, rfl⟩
  | error x =>
    simp only [forward, current_eq_ok_iff.mpr hn, bind, Except.bind] at hforward
    split_ifs at hforward
    all_goals cases hforward

/-- A dag whose stage is that of a node always has a next move. -/
theorem exists_step {d : Dag} {n : Node} (hn : d.currentNode? = some n) (now : Timestamp) :
    ∃ move, d.step now = .ok move := by
  rw [step]
  cases d.direction with
  | execute => exact exists_forward hn now
  | rollback =>
    cases hunwind : d.unwind with
    | ok move => exact ⟨move, rfl⟩
    | error x =>
      simp only [unwind, current_eq_ok_iff.mpr hn, bind, Except.bind] at hunwind
      split_ifs at hunwind
      all_goals cases hunwind

/-- A step writes another record of the same dag, made from the version that was read. -/
theorem step_same {d record : Dag} {now : Timestamp} {move : Move} (h : d.step now = .ok move)
    (hwrite : move.write = some record) : record.id = d.id ∧ record.version = d.version := by
  rw [step] at h
  cases hdirection : d.direction with
  | execute =>
    simp only [hdirection] at h
    obtain ⟨n, hn, -⟩ := bind_eq_ok h
    cases forward_cases (current_eq_ok_iff.mp hn) h <;> cases hwrite <;> exact ⟨rfl, rfl⟩
  | rollback =>
    simp only [hdirection] at h
    obtain ⟨n, hn, -⟩ := bind_eq_ok h
    cases unwind_cases (current_eq_ok_iff.mp hn) h <;> cases hwrite <;> exact ⟨rfl, rfl⟩

theorem step_id {d record : Dag} {now : Timestamp} {move : Move} (h : d.step now = .ok move)
    (hwrite : move.write = some record) : record.id = d.id := (step_same h hwrite).1

end Dag

end Stagewise
