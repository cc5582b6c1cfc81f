import Stagewise.Proofs.Document.Message
import Stagewise.Store.Basic
/-!
# How deep documents are nested

Only free values make documents deep. A parameter lies under seven lists and objects in the document
of a dag, and under six in that of a specification.
-/

namespace Stagewise

namespace Json

theorem depthList_le_iff {items : List Json} {n : Nat} :
    depthList items ≤ n ↔ ∀ j ∈ items, j.depth ≤ n := by
  induction items with
  | nil => simp [depthList]
  | cons j items ih => simp [depthList, ih]

theorem depthMembers_le_iff {members : List (String × Json)} {n : Nat} :
    depthMembers members ≤ n ↔ ∀ m ∈ members, m.2.depth ≤ n := by
  induction members with
  | nil => simp [depthMembers]
  | cons m members ih => simp [depthMembers, ih]

theorem depth_list_map_le_iff {α : Type} [Document α] (as : List α) (n : Nat) :
    (Json.list (as.map toJson)).depth ≤ n + 1 ↔ ∀ a ∈ as, (toJson a).depth ≤ n := by
  rw [depth, Nat.add_le_add_iff_right, depthList_le_iff, List.forall_mem_map]

end Json

/-- The parameters and results are nested at most `k` deep. -/
def TaskContext.Within (k : Nat) (c : TaskContext) : Prop :=
  Json.depthMembers c.params.rows ≤ k ∧ Json.depthMembers c.results.rows ≤ k

theorem TaskContext.depth_le_iff {c : TaskContext} {k : Nat} :
    (toJson c).depth ≤ k + 2 ↔ c.Within k := by
  change Json.depthMembers _ + 1 ≤ k + 2 ↔ _
  have hagent : (toJson c.executeAgent).depth = 1 := rfl
  simp only [Json.depthMembers, hagent, Json.depth, Within]
  omega

theorem Task.depth_le_iff {t : Task} {k : Nat} :
    (toJson t).depth ≤ k + 3 ↔ t.context.Within k := by
  have hcapabilities : (toJson t.capabilities).depth = 1 := rfl
  have hresults : Json.depthMembers (t.agentResults.rows.map fun e => (e.1, toJson e.2)) ≤ 0 := by
    rw [Json.depthMembers_le_iff, List.forall_mem_map]
    exact fun _ _ => Nat.le_refl 0
  have htime : ∀ time? : Option Timestamp, (Json.ofOption toJson time?).depth = 0 := fun time? => by
    cases time? <;> rfl
  rw [← TaskContext.depth_le_iff]
  change Json.depthMembers _ + 1 ≤ k + 3 ↔ _
  simp only [Json.depthMembers, hcapabilities, htime]
  have hwords : (toJson t.id).depth = 0 ∧ (toJson t.status).depth = 0 := ⟨rfl, rfl⟩
  simp only [hwords, Json.depth] at hresults ⊢
  omega

theorem Node.depth_le_iff {n : Node} {k : Nat} :
    (toJson n).depth ≤ k + 5 ↔ ∀ t ∈ n.tasks, t.context.Within k := by
  have htasks := Json.depth_list_map_le_iff n.tasks (k + 3)
  have hagents := (Json.depth_list_map_le_iff n.participants 1).2 fun _ _ =>
    Nat.le_refl 1
  simp only [Task.depth_le_iff] at htasks
  rw [← htasks]
  change Json.depthMembers _ + 1 ≤ k + 5 ↔ _
  simp only [Json.depthMembers, Json.depth] at hagents ⊢
  omega

/-- How deep a dag is nested depends only on the parameters and results of its tasks. -/
theorem Dag.depth_le_iff {d : Dag} {k : Nat} :
    (toJson d).depth ≤ k + 7 ↔ ∀ n ∈ d.nodes, ∀ t ∈ n.tasks, t.context.Within k := by
  have hnodes := Json.depth_list_map_le_iff d.nodes (k + 5)
  simp only [Node.depth_le_iff] at hnodes
  rw [← hnodes]
  change Json.depthMembers _ + 1 ≤ k + 7 ↔ _
  have hwords : (toJson d.id).depth = 0 ∧ (toJson d.kind).depth = 0 ∧ (toJson d.status).depth = 0 ∧
      (toJson d.operator).depth = 0 ∧ (toJson d.createdAt).depth = 0 ∧
      (toJson d.updatedAt).depth = 0 := ⟨rfl, rfl, rfl, rfl, rfl, rfl⟩
  simp only [Json.depthMembers, hwords, Json.depth]
  omega

end Stagewise
