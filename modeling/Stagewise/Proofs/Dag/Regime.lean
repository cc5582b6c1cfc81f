import Stagewise.Proofs.Dag.Moves
import Stagewise.Proofs.Dag.Reports
/-!
# The regimes of a dag

A dag that has never been told to roll back advances: what lies behind its stage has succeeded, and
what lies ahead has not been touched. A dag that is rolled back unwinds: what lies behind its stage
has still to be compensated, and what lies ahead is compensated or was never started. Every step,
command and recovery keeps a dag in the one or the other, until it is cancelled.
-/

namespace Stagewise.Dag

/-- The shape that a dag has from its submission on. -/
structure Shaped (d : Dag) : Prop where
  distinct : d.Distinct
  inhabited : ∀ i < d.nodes.length, ∃ t, d.TaskAt i t
  maxStage_eq : d.maxStage = d.nodes.length
  stage_pos : 0 < d.stage
  stage_le : d.stage ≤ d.maxStage

/-- A dag that goes forward, is parked on its way, or has come to its end. -/
structure Advancing (d : Dag) : Prop where
  operator : d.operator ≠ .rollback
  status : d.status ≠ .cancelled
  behind : ∀ i t, d.TaskAt i t → i + 1 < d.stage → t.status = .succeeded
  here : ∀ i t, d.TaskAt i t → i + 1 = d.stage → t.status ≠ .skipped ∧ t.status ≠ .rolledBack
  ahead : ∀ i t, d.TaskAt i t → d.stage < i + 1 → t.status = .pending
  parked : d.status = .failed →
    (∃ i t, d.TaskAt i t ∧ i + 1 = d.stage ∧ t.status = .failed) ∧ ∀ i t, d.TaskAt i t →
      t.status ≠ .running
  finished : d.status = .succeeded → d.stage = d.maxStage ∧ ∀ i t, d.TaskAt i t →
    t.status = .succeeded

/-- A dag that is rolled back, whether at work, failed on its way, or done. -/
structure Unwinding (d : Dag) : Prop where
  operator : d.operator = .rollback
  status : d.status = .running ∨ d.status = .failed
  behind : ∀ i t, d.TaskAt i t → i + 1 < d.stage → t.status = .succeeded
  here : ∀ i t, d.TaskAt i t → i + 1 = d.stage → t.status ≠ .skipped ∧ t.status ≠ .running
  ahead : ∀ i t, d.TaskAt i t → d.stage < i + 1 → t.status = .pending ∨ t.status = .rolledBack
  permitted : ∀ i t, d.TaskAt i t → t.status.isExecuted → t.capabilities.canRollback
  ended : d.status = .failed →
    (∃ i t, d.TaskAt i t ∧ i + 1 = d.stage ∧ t.status = .failed) ∨ ∀ i t, d.TaskAt i t →
      ¬ t.status.isExecuted

/-- A dag that is cancelled. -/
structure Stopped (d : Dag) : Prop where
  operator : d.operator = .cancel
  status : d.status = .cancelled

/-- What holds of every record that is ever stored. -/
structure Sound (d : Dag) : Prop where
  shaped : d.Shaped
  regime : d.Advancing ∨ d.Unwinding ∨ d.Stopped

/-! ## Shape -/

theorem Shaped.currentNode {d : Dag} (h : d.Shaped) : ∃ n, d.currentNode? = some n := by
  have hlt : d.stage - 1 < d.nodes.length := by
    have := h.stage_pos
    have := h.stage_le
    have := h.maxStage_eq
    omega
  exact ⟨_, currentNode?_eq_some_iff.mpr ⟨h.stage_pos, List.getElem?_eq_getElem hlt⟩⟩

theorem Shaped.inhabited_here {d : Dag} (h : d.Shaped) : ∃ i t, d.TaskAt i t ∧ i + 1 = d.stage := by
  have hpos := h.stage_pos
  have hle := h.stage_le
  have hmax := h.maxStage_eq
  obtain ⟨t, ht⟩ := h.inhabited (d.stage - 1) (by omega)
  exact ⟨_, t, ht, by omega⟩

theorem Shaped.mapAt {d : Dag} (h : d.Shaped) {g : Nat → Task → Task}
    (hg : ∀ i t, (g i t).id = t.id) :
    (d.mapAt g).Shaped where
  distinct := h.distinct.mapAt hg
  inhabited := by
    intro i hi
    rw [Dag.mapAt, List.length_mapIdx] at hi
    obtain ⟨t, ht⟩ := h.inhabited i hi
    exact ⟨_, taskAt_mapAt.mpr ⟨t, ht, rfl⟩⟩
  maxStage_eq := by
    rw [Dag.mapAt, List.length_mapIdx]
    exact h.maxStage_eq
  stage_pos := h.stage_pos
  stage_le := h.stage_le

theorem Shaped.mapTasks {d : Dag} (h : d.Shaped) {f : Task → Task} (hf : ∀ t, (f t).id = t.id) :
    (d.mapTasks f).Shaped := by
  rw [mapTasks_eq_mapAt]
  exact h.mapAt fun _ => hf

theorem Shaped.withStatus {d : Dag} (h : d.Shaped) (status : DagStatus) :
    { d with status }.Shaped :=
  ⟨h.distinct, h.inhabited, h.maxStage_eq, h.stage_pos, h.stage_le⟩

theorem Shaped.withOperator {d : Dag} (h : d.Shaped) (operator : Operator) :
    { d with operator }.Shaped :=
  ⟨h.distinct, h.inhabited, h.maxStage_eq, h.stage_pos, h.stage_le⟩

theorem Shaped.withStage {d : Dag} (h : d.Shaped) {stage : Nat} (hpos : 0 < stage)
    (hle : stage ≤ d.maxStage) :
    { d with stage }.Shaped :=
  ⟨h.distinct, h.inhabited, h.maxStage_eq, hpos, hle⟩

theorem Shaped.raised {d : Dag} (h : d.Shaped) (now : Timestamp) : (d.raised now).Shaped :=
  ⟨h.distinct, h.inhabited, h.maxStage_eq, h.stage_pos, h.stage_le⟩

theorem Sound.raised {d : Dag} (h : d.Sound) (now : Timestamp) : (d.raised now).Sound where
  shaped := h.shaped.raised now
  regime := by
    rcases h.regime with hr | hr | hr
    · exact .inl ⟨hr.operator, hr.status, hr.behind, hr.here, hr.ahead, hr.parked, hr.finished⟩
    · exact .inr
        (.inl ⟨hr.operator, hr.status, hr.behind, hr.here, hr.ahead, hr.permitted, hr.ended⟩)
    · exact .inr (.inr ⟨hr.operator, hr.status⟩)

end Stagewise.Dag
