import Mathlib.Data.List.Forall2
import Stagewise.Dag.Build
import Stagewise.Proofs.Dag.Regime
/-!
# What the builder makes

A dag that is built from a specification waits at its first stage: none of its tasks has been
started, and when the identifiers it is given are distinct, those of its tasks are. It is sound, so
that everything that follows for sound dags holds from its submission on.
-/

namespace Stagewise

/-- The source of identifiers gives no two tasks of a specification the same one. -/
def FreshIds.DistinctFor (ids : FreshIds) (spec : DagSpec) : Prop :=
  ∀ i n i' n', spec.nodes[i]? = some n → spec.nodes[i']? = some n' → ∀ j < n.tasks.length,
    ∀ j' < n'.tasks.length, ids.task i j = ids.task i' j' → i = i' ∧ j = j'

/-- A single task needs no identifier but its own. -/
theorem FreshIds.distinctFor_single (ids : FreshIds) {spec : DagSpec} {n : NodeSpec} {t : TaskSpec}
    (hnodes : spec.nodes = [n]) (htasks : n.tasks = [t]) : ids.DistinctFor spec := by
  have hplace {i j : Nat} {m : NodeSpec} (hm : spec.nodes[i]? = some m)
      (hj : j < m.tasks.length) : i = 0 ∧ j = 0 := by
    obtain ⟨hi, rfl⟩ := List.getElem?_eq_some_iff.mp hm
    have hzero : i = 0 := by simpa [hnodes] using hi
    subst hzero
    exact ⟨rfl, by simpa [hnodes, htasks] using hj⟩
  intro i m i' m' hm hm' j hj j' hj' _
  obtain ⟨rfl, rfl⟩ := hplace hm hj
  obtain ⟨rfl, rfl⟩ := hplace hm' hj'
  exact ⟨rfl, rfl⟩

namespace DagSpec

theorem made_of_mapM_zipIdx {α β : Type} {f : α × Nat → EngineResult β} {l : List α} {made : List β}
    (h : l.zipIdx.mapM f = .ok made) {i : Nat} {b : β} (hb : made[i]? = some b) :
    ∃ a, l[i]? = some a ∧ f (a, i) = .ok b := by
  have hall := mapM_eq_ok_iff.1 h
  have hlen : l.length = made.length := by simpa using hall.length_eq
  obtain ⟨hi, rfl⟩ := List.getElem?_eq_some_iff.mp hb
  refine ⟨l[i], List.getElem?_eq_getElem (by omega), ?_⟩
  have hget := (List.forall₂_iff_get.mp hall).2 i (by simpa [hlen] using hi) hi
  simpa using hget

variable {r : Registry} {ids : FreshIds} {now : Timestamp}

theorem makeTask_eq_ok {id : TaskId} {spec : TaskSpec} {t : Task} (h : makeTask r id spec = .ok t) :
    t.id = id ∧ t.status = .pending ∧ t.finishedAt = none ∧
      t.context = ⟨spec.agent, spec.params, .empty⟩ := by
  obtain ⟨capabilities, -, h⟩ := bind_eq_ok h
  obtain rfl := Except.ok.inj h
  exact ⟨rfl, rfl, rfl, rfl⟩

theorem makeNode_eq_ok {names : Nat → TaskId} {spec : NodeSpec} {n : Node}
    (h : makeNode r names spec = .ok n) :
    n.tasks ≠ [] ∧ n.tasks.length = spec.tasks.length ∧
      ∀ j t, n.tasks[j]? = some t →
        ∃ u, spec.tasks[j]? = some u ∧ makeTask r (names j) u = .ok t := by
  rw [makeNode] at h
  by_cases hempty : spec.tasks.isEmpty = true
  · rw [if_pos hempty] at h
    cases h
  · rw [if_neg hempty] at h
    obtain ⟨tasks, htasks, h⟩ := bind_eq_ok h
    obtain rfl := Except.ok.inj h
    have hlen : spec.tasks.length = tasks.length := by
      simpa using (mapM_eq_ok_iff.1 htasks).length_eq
    refine ⟨?_, hlen.symm, fun j t ht => made_of_mapM_zipIdx htasks ht⟩
    rintro rfl
    rw [List.length_nil, List.length_eq_zero_iff] at hlen
    simp [hlen] at hempty

theorem build_eq_ok {spec : DagSpec} {d : Dag} (h : spec.build r ids now = .ok d) :
    d.nodes ≠ [] ∧ d.stage = 1 ∧ d.maxStage = d.nodes.length ∧ d.status = .running ∧
      d.operator = .run ∧ ∀ i n, d.nodes[i]? = some n → ∃ s, spec.nodes[i]? = some s ∧
        n.tasks ≠ [] ∧ n.tasks.length = s.tasks.length ∧
          ∀ j t, n.tasks[j]? = some t →
            ∃ u, s.tasks[j]? = some u ∧ makeTask r (ids.task i j) u = .ok t := by
  rw [build] at h
  by_cases hblank : Text.isBlankText spec.name = true
  · rw [if_pos hblank] at h
    cases h
  · rw [if_neg hblank] at h
    by_cases hempty : spec.nodes.isEmpty = true
    · rw [if_pos hempty] at h
      cases h
    · rw [if_neg hempty] at h
      obtain ⟨nodes, hnodes, h⟩ := bind_eq_ok h
      obtain rfl := Except.ok.inj h
      refine ⟨?_, rfl, rfl, rfl, rfl, fun i n hn => ?_⟩
      · have hlen : spec.nodes.length = nodes.length := by
          simpa using (mapM_eq_ok_iff.1 hnodes).length_eq
        rintro rfl
        rw [List.length_nil, List.length_eq_zero_iff] at hlen
        simp [hlen] at hempty
      · obtain ⟨s, hs, hmade⟩ := made_of_mapM_zipIdx hnodes hn
        exact ⟨s, hs, makeNode_eq_ok hmade⟩

/-- Every task of a dag that is built is made from the one at its place in the specification. -/
theorem build_taskAt {spec : DagSpec} {d : Dag} (h : spec.build r ids now = .ok d) {i : Nat}
    {t : Task} (ht : d.TaskAt i t) :
    ∃ j s u, spec.nodes[i]? = some s ∧ s.tasks[j]? = some u ∧
      makeTask r (ids.task i j) u = .ok t := by
  obtain ⟨-, -, -, -, -, hmade⟩ := build_eq_ok h
  obtain ⟨n, hn, hmem⟩ := ht
  obtain ⟨j, hj⟩ := List.mem_iff_getElem?.mp hmem
  obtain ⟨s, hs, -, -, htasks⟩ := hmade i n hn
  obtain ⟨u, hu, htask⟩ := htasks j t hj
  exact ⟨j, s, u, hs, hu, htask⟩

theorem build_distinct {spec : DagSpec} (hids : ids.DistinctFor spec) {d : Dag}
    (h : spec.build r ids now = .ok d) :
    d.Distinct := by
  obtain ⟨-, -, -, -, -, hmade⟩ := build_eq_ok h
  have hnamed {i j : Nat} {s : NodeSpec} {t : Task}
      (htask : ∃ u, s.tasks[j]? = some u ∧ makeTask r (ids.task i j) u = .ok t) :
      t.id = ids.task i j := by
    obtain ⟨u, -, hu⟩ := htask
    exact (makeTask_eq_ok hu).1
  rw [Dag.Distinct, Dag.tasks, List.map_flatMap, List.nodup_flatMap]
  constructor
  -- Within a node the identifiers differ by the index of the task.
  · intro n hn
    obtain ⟨i, hi⟩ := List.mem_iff_getElem?.mp hn
    obtain ⟨s, hs, -, hlen, htasks⟩ := hmade i n hi
    rw [List.nodup_iff_injective_get]
    intro a b hab
    simp only [List.get_eq_getElem, List.getElem_map] at hab
    have halt : a.1 < n.tasks.length := by simpa using a.isLt
    have hblt : b.1 < n.tasks.length := by simpa using b.isLt
    have ha := hnamed (htasks a _ (List.getElem?_eq_getElem halt))
    have hb := hnamed (htasks b _ (List.getElem?_eq_getElem hblt))
    have hsame := hids i s i s hs hs a (hlen ▸ halt) b (hlen ▸ hblt) (ha.symm.trans (hab.trans hb))
    exact Fin.ext hsame.2
  -- Across nodes they differ by the index of the node.
  · rw [List.pairwise_iff_getElem]
    intro i i' hi hi' hlt id hmem hmem'
    obtain ⟨t, ht, rfl⟩ := List.mem_map.mp hmem
    obtain ⟨u, hu, hid⟩ := List.mem_map.mp hmem'
    obtain ⟨s, hs, -, hlen, htasks⟩ := hmade i _ (List.getElem?_eq_getElem hi)
    obtain ⟨s', hs', -, hlen', htasks'⟩ := hmade i' _ (List.getElem?_eq_getElem hi')
    obtain ⟨j, hj, rfl⟩ := List.mem_iff_getElem.mp ht
    obtain ⟨j', hj', rfl⟩ := List.mem_iff_getElem.mp hu
    have ht' := hnamed (htasks j _ (List.getElem?_eq_getElem hj))
    have hu' := hnamed (htasks' j' _ (List.getElem?_eq_getElem hj'))
    have hsame :=
      hids i s i' s' hs hs' j (hlen ▸ hj) j' (hlen' ▸ hj') (ht'.symm.trans (hid.symm.trans hu'))
    exact Nat.ne_of_lt hlt hsame.1

theorem build_pending {spec : DagSpec} {d : Dag} (h : spec.build r ids now = .ok d) {i : Nat}
    {t : Task} (ht : d.TaskAt i t) : t.status = .pending := by
  obtain ⟨j, s, u, -, -, hmade⟩ := build_taskAt h ht
  exact (makeTask_eq_ok hmade).2.1

/-- A dag that is built is sound. -/
theorem build_sound {spec : DagSpec} (hids : ids.DistinctFor spec) {d : Dag}
    (h : spec.build r ids now = .ok d) :
    d.Sound := by
  obtain ⟨hnonempty, hstage, hmax, hstatus, hoperator, hmade⟩ := build_eq_ok h
  have hpos : 0 < d.nodes.length := List.length_pos_iff.mpr hnonempty
  have hpending : ∀ i t, d.TaskAt i t → t.status = .pending := fun i t ht => build_pending h ht
  refine ⟨⟨build_distinct hids h, fun i hi => ?_, hmax, by omega, by omega⟩, .inl ?_⟩
  · obtain ⟨s, -, hn, -⟩ := hmade i _ (List.getElem?_eq_getElem hi)
    obtain ⟨t, ht⟩ := List.exists_mem_of_ne_nil _ hn
    exact ⟨t, _, List.getElem?_eq_getElem hi, ht⟩
  · constructor
    case operator => simp [hoperator]
    case status => simp [hstatus]
    case behind => exact fun i t _ hi => by omega
    case here => exact fun i t ht _ => by simp [hpending i t ht]
    case ahead => exact fun i t ht _ => hpending i t ht
    case parked => exact fun hs => by simp [hstatus] at hs
    case finished => exact fun hs => by simp [hstatus] at hs

end DagSpec

end Stagewise
