import Mathlib.Data.List.Nodup
import Stagewise.Dag.Basic
import Stagewise.Engine.Command
import Stagewise.Engine.Step
import Stagewise.Store.Basic
/-!
# The places of tasks

Where a task stands in a dag: in which node, counted from zero. When no two tasks have the same
identifier, a task that is changed by its identifier is the only one that changes, so that every way
of changing tasks is a map over all of them, and the places stay as they are.
-/

namespace Stagewise.Dag

/-- The task is one of the node at index `i`. -/
def TaskAt (d : Dag) (i : Nat) (t : Task) : Prop := ∃ n, d.nodes[i]? = some n ∧ t ∈ n.tasks

/-- No two tasks have the same identifier. -/
def Distinct (d : Dag) : Prop := (d.tasks.map (·.id)).Nodup

/-- The task with that identifier has the status. -/
def Shows (d : Dag) (id : TaskId) (status : TaskStatus) : Prop :=
  ∃ i t, d.TaskAt i t ∧ t.id = id ∧ t.status = status

theorem mem_tasks_iff {d : Dag} {t : Task} : t ∈ d.tasks ↔ ∃ i, d.TaskAt i t := by
  simp only [tasks, List.mem_flatMap, TaskAt]
  constructor
  · rintro ⟨n, hn, ht⟩
    obtain ⟨i, hi⟩ := List.mem_iff_getElem?.mp hn
    exact ⟨i, n, hi, ht⟩
  · rintro ⟨i, n, hi, ht⟩
    exact ⟨n, List.mem_of_getElem? hi, ht⟩

theorem TaskAt.mem_tasks {d : Dag} {i : Nat} {t : Task} (h : d.TaskAt i t) : t ∈ d.tasks :=
  mem_tasks_iff.mpr ⟨i, h⟩

theorem TaskAt.lt_length {d : Dag} {i : Nat} {t : Task} (h : d.TaskAt i t) :
    i < d.nodes.length := by
  obtain ⟨n, hn, _⟩ := h
  exact (List.getElem?_eq_some_iff.mp hn).1

/-- With distinct identifiers, the identifier of a task decides the task and its place. -/
theorem Distinct.unique {d : Dag} (h : d.Distinct) {i j : Nat} {t u : Task} (ht : d.TaskAt i t)
    (hu : d.TaskAt j u) (hid : t.id = u.id) : i = j ∧ t = u := by
  obtain ⟨n, hn, htn⟩ := ht
  obtain ⟨m, hm, hum⟩ := hu
  rw [Distinct, tasks, List.map_flatMap, List.nodup_flatMap] at h
  obtain ⟨hwithin, hacross⟩ := h
  obtain ⟨hi, rfl⟩ := List.getElem?_eq_some_iff.mp hn
  obtain ⟨hj, rfl⟩ := List.getElem?_eq_some_iff.mp hm
  have hshared : t.id ∈ d.nodes[i].tasks.map (·.id) ∧ t.id ∈ d.nodes[j].tasks.map (·.id) :=
    ⟨List.mem_map_of_mem htn, hid ▸ List.mem_map_of_mem hum⟩
  have hij : i = j := by
    rcases Nat.lt_trichotomy i j with hlt | heq | hgt
    · exact absurd hshared.2 (List.pairwise_iff_getElem.mp hacross i j hi hj hlt hshared.1)
    · exact heq
    · exact absurd hshared.1 (List.pairwise_iff_getElem.mp hacross j i hj hi hgt hshared.2)
  subst hij
  exact ⟨rfl, List.inj_on_of_nodup_map (hwithin _ (List.getElem_mem hi)) htn hum hid⟩

theorem TaskAt.shows {d : Dag} {i : Nat} {t : Task} (h : d.TaskAt i t) : d.Shows t.id t.status :=
  ⟨i, t, h, rfl, rfl⟩

theorem Distinct.shows_iff {d : Dag} (h : d.Distinct) {i : Nat} {t : Task} (ht : d.TaskAt i t)
    {status : TaskStatus} :
    d.Shows t.id status ↔ t.status = status := by
  constructor
  · rintro ⟨j, u, hu, hid, hs⟩
    rw [(h.unique ht hu hid.symm).2, hs]
  · rintro rfl
    exact ht.shows

theorem Distinct.shows_unique {d : Dag} (h : d.Distinct) {id : TaskId} {status status' : TaskStatus}
    (hs : d.Shows id status) (hs' : d.Shows id status') : status = status' := by
  obtain ⟨i, t, ht, rfl, rfl⟩ := hs
  exact (h.shows_iff ht).mp hs'

theorem isRunning_iff {d : Dag} : d.isRunning ↔ d.status = .running := by simp [isRunning]

theorem withStatus_self {d : Dag} {status : DagStatus} (h : d.status = status) :
    { d with status } = d := by
  subst h
  rfl

/-! ## Changing tasks -/

/-- Changes every task according to the index of its node. -/
def mapAt (d : Dag) (g : Nat → Task → Task) : Dag :=
  { d with nodes := d.nodes.mapIdx fun i n => { n with tasks := n.tasks.map (g i) } }

theorem taskAt_mapAt {d : Dag} {g : Nat → Task → Task} {i : Nat} {t : Task} :
    (d.mapAt g).TaskAt i t ↔ ∃ u, d.TaskAt i u ∧ g i u = t := by
  simp only [TaskAt, mapAt, List.getElem?_mapIdx, Option.map_eq_some_iff]
  constructor
  · rintro ⟨_, ⟨n, hn, rfl⟩, ht⟩
    obtain ⟨u, hu, rfl⟩ := List.mem_map.mp ht
    exact ⟨u, ⟨n, hn, hu⟩, rfl⟩
  · rintro ⟨u, ⟨n, hn, hu⟩, rfl⟩
    exact ⟨_, ⟨n, hn, rfl⟩, List.mem_map_of_mem hu⟩

theorem taskIds_mapAt (d : Dag) {g : Nat → Task → Task} (hg : ∀ i t, (g i t).id = t.id) :
    (d.mapAt g).tasks.map (·.id) = d.tasks.map (·.id) := by
  have hnodes : (d.mapAt g).nodes.map (fun n => n.tasks.map (·.id)) = d.nodes.map fun n =>
    n.tasks.map (·.id) := by
    refine List.ext_getElem? fun i => ?_
    simp [mapAt, Function.comp_def, hg]
  rw [tasks, tasks, List.map_flatMap, List.map_flatMap, List.flatMap_def, List.flatMap_def, hnodes]

theorem Distinct.mapAt {d : Dag} (h : d.Distinct) {g : Nat → Task → Task}
    (hg : ∀ i t, (g i t).id = t.id) :
    (d.mapAt g).Distinct := by
  rwa [Distinct, taskIds_mapAt d hg]

theorem mapTasks_eq_mapAt (d : Dag) (f : Task → Task) : d.mapTasks f = d.mapAt fun _ => f := by
  simp only [mapTasks, mapAt]
  congr 1
  exact List.ext_getElem? fun i => by simp

theorem mapTasks_tasks (d : Dag) (f : Task → Task) : (d.mapTasks f).tasks = d.tasks.map f := by
  simp [mapTasks, tasks, List.flatMap_map, List.map_flatMap]

theorem mapTasks_congr {d : Dag} {f g : Task → Task} (h : ∀ t ∈ d.tasks, f t = g t) :
    d.mapTasks f = d.mapTasks g := by
  have hnodes : d.nodes.map (fun n => { n with tasks := n.tasks.map f })
      = d.nodes.map fun n => { n with tasks := n.tasks.map g } := by
    refine List.map_congr_left fun n hn => ?_
    rw [List.map_congr_left fun t ht => h t (List.mem_flatMap.mpr ⟨n, hn, ht⟩)]
  simp only [mapTasks, hnodes]

theorem mapTasks_mapTasks (d : Dag) (f g : Task → Task) :
    (d.mapTasks f).mapTasks g = d.mapTasks (g ∘ f) := by
  simp [mapTasks, Function.comp_def]

theorem mapTasks_self (d : Dag) : d.mapTasks (fun t => t) = d := by
  simp [mapTasks]

theorem modifyCurrent_eq_mapAt {d : Dag} {n : Node} (h : d.currentNode? = some n)
    (f : Task → Task) :
    (d.modifyCurrent fun _ => { n with tasks := n.tasks.map f })
      = d.mapAt fun i t => if i + 1 = d.stage then f t else t := by
  obtain ⟨hstage, hn⟩ : d.stage ≠ 0 ∧ d.nodes[d.stage - 1]? = some n := by
    simpa [currentNode?] using h
  simp only [modifyCurrent, mapAt, hstage, if_false]
  congr 1
  refine List.ext_getElem? fun i => ?_
  rw [List.getElem?_modify, List.getElem?_mapIdx]
  by_cases hi : i + 1 = d.stage
  · have hpred : d.stage - 1 = i := by omega
    simp [hi, hpred, hpred ▸ hn]
  · have hpred : d.stage - 1 ≠ i := by omega
    simp [hi, hpred]

theorem map_ite_of_notMem {l : List Task} {id : TaskId} (h : id ∉ l.map (·.id)) (f : Task → Task) :
    l.map (fun t => if t.id = id then f t else t) = l := by
  conv_rhs => rw [← List.map_id l]
  refine List.map_congr_left fun t ht => if_neg ?_
  rintro rfl
  exact h (List.mem_map_of_mem ht)

/-- The first place of an identifier in a list without repetitions is its only one. -/
theorem modifyFirst_eq_map {l : List Task} (h : (l.map (·.id)).Nodup) (id : TaskId)
    (f : Task → Task) :
    modifyFirst (·.id == id) f l = l.map fun t => if t.id = id then f t else t := by
  induction l with
  | nil => rfl
  | cons t rest ih =>
    rw [List.map_cons, List.nodup_cons] at h
    by_cases ht : t.id = id
    · simp [modifyFirst, ht, map_ite_of_notMem (ht ▸ h.1)]
    · simp [modifyFirst, ht, ih h.2]

theorem modifyFirst_nodes_eq_map {nodes : List Node}
    (h : (nodes.flatMap fun n => n.tasks.map (·.id)).Nodup) (id : TaskId) (f : Task → Task) :
    modifyFirst (fun n : Node => n.tasks.any (·.id == id))
        (fun n => { n with tasks := modifyFirst (·.id == id) f n.tasks }) nodes
      = nodes.map fun n =>
        { n with tasks := n.tasks.map fun t => if t.id = id then f t else t } := by
  induction nodes with
  | nil => rfl
  | cons n rest ih =>
    rw [List.flatMap_cons, List.nodup_append] at h
    obtain ⟨hn, hrest, hapart⟩ := h
    rw [List.map_cons]
    by_cases hmem : id ∈ n.tasks.map (·.id)
    · have hany : n.tasks.any (·.id == id) = true := by simpa using hmem
      have hothers :
          rest.map (fun m => { m with tasks := m.tasks.map fun t => if t.id = id then f t else t })
          = rest := by
        conv_rhs => rw [← List.map_id rest]
        refine List.map_congr_left fun m hm => ?_
        rw [map_ite_of_notMem fun hid => hapart id hmem id (List.mem_flatMap.mpr ⟨m, hm, hid⟩) rfl]
        rfl
      simp only [modifyFirst, hany, if_true, modifyFirst_eq_map hn, hothers]
    · have hany : n.tasks.any (·.id == id) = false := by simpa using hmem
      simp only [modifyFirst, hany, Bool.false_eq_true, if_false, map_ite_of_notMem hmem, ih hrest]

theorem modifyTask_eq_mapTasks {d : Dag} (h : d.Distinct) (id : TaskId) (f : Task → Task) :
    d.modifyTask id f = d.mapTasks fun t => if t.id = id then f t else t := by
  rw [Distinct, tasks, List.map_flatMap] at h
  simp only [modifyTask, mapTasks, modifyFirst_nodes_eq_map h]

theorem modifyTasks_eq_mapTasks {d : Dag} (h : d.Distinct) {ids : List TaskId} (hids : ids.Nodup)
    {f : Task → Task} (hf : ∀ t, (f t).id = t.id) :
    d.modifyTasks ids f = d.mapTasks fun t => if t.id ∈ ids then f t else t := by
  induction ids generalizing d with
  | nil => simp [modifyTasks, mapTasks_self]
  | cons id rest ih =>
    rw [List.nodup_cons] at hids
    have hone := modifyTask_eq_mapTasks h id f
    have hkeep : ∀ t : Task, (if t.id = id then f t else t).id = t.id :=
      fun t => by split <;> simp [hf]
    have hdistinct : (d.modifyTask id f).Distinct := by
      rw [hone, mapTasks_eq_mapAt]
      exact h.mapAt fun _ => hkeep
    have hrest := ih hdistinct hids.2
    rw [modifyTasks, List.foldl_cons, ← modifyTasks, hrest, hone, mapTasks_mapTasks]
    refine mapTasks_congr fun t _ => ?_
    by_cases ht : t.id = id
    · simp [ht, hf, hids.1]
    · simp [ht]

theorem stage_modifyTasks (d : Dag) (ids : List TaskId) (f : Task → Task) :
    (d.modifyTasks ids f).stage = d.stage := by
  induction ids generalizing d with
  | nil => rfl
  | cons id rest ih => exact ih (d.modifyTask id f)

end Stagewise.Dag
