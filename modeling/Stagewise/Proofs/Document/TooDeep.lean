import Mathlib.Tactic.ByContra
import Stagewise.Proofs.Document.Nesting
import Stagewise.Proofs.Results
/-!
# Dags that are nested too deeply

The document of a dag whose parameters or results are nested too deeply can be written, but a part
of it is unreadable when it is read, and then no dag is read at all.
-/

namespace Stagewise

open Decode (Given)

namespace Json

theorem prune_list (n : Nat) (items : List Json) :
    prune (n + 1) (.list items) = .list (pruneList n items) := by
  rw [prune, if_neg (Nat.succ_ne_zero n), Nat.add_sub_cancel]

theorem prune_object (n : Nat) (members : List (String × Json)) :
    prune (n + 1) (.object members) = .object (pruneMembers n members) := by
  rw [prune, if_neg (Nat.succ_ne_zero n), Nat.add_sub_cancel]

theorem pruneList_eq_map (n : Nat) (items : List Json) :
    pruneList n items = items.map (prune n) := by
  induction items with
  | nil => rfl
  | cons j items ih => rw [pruneList, List.map_cons, ih]

mutual

/-- What lies too deep is not left out without a trace. -/
theorem depth_le_of_prune (j : Json) {n : Nat} (h : (prune n j).isReadable = true) :
    j.depth ≤ n := by
  match j with
  | .null | .bool _ | .int _ | .real _ | .text _ | .unreadable => exact Nat.zero_le n
  | .list items =>
    cases n with
    | zero => cases h
    | succ n =>
      rw [prune_list] at h
      exact Nat.succ_le_succ (depthList_le_of_prune items h)
  | .object members =>
    cases n with
    | zero => cases h
    | succ n =>
      rw [prune_object] at h
      exact Nat.succ_le_succ (depthMembers_le_of_prune members h)

theorem depthList_le_of_prune (items : List Json) {n : Nat}
    (h : isReadableList (pruneList n items) = true) : depthList items ≤ n := by
  match items with
  | [] => exact Nat.zero_le n
  | j :: rest =>
    obtain ⟨hj, hrest⟩ := Bool.and_eq_true_iff.1 h
    exact Nat.max_le.2 ⟨depth_le_of_prune j hj, depthList_le_of_prune rest hrest⟩

theorem depthMembers_le_of_prune (members : List (String × Json)) {n : Nat}
    (h : isReadableMembers (pruneMembers n members) = true) : depthMembers members ≤ n := by
  match members with
  | [] => exact Nat.zero_le n
  | (_, v) :: rest =>
    obtain ⟨hv, hrest⟩ := Bool.and_eq_true_iff.1 h
    exact Nat.max_le.2 ⟨depth_le_of_prune v hv, depthMembers_le_of_prune rest hrest⟩

end

end Json

/-- The text of a value that is nested too deeply is read like its pruned document. -/
theorem Document.readText?_text_eq {α : Type} [Document α] {a : α}
    (h : (toJson a).isExact = true) :
    (Document.readText? (Document.text a) : Option α) =
      (Document.ofJson (Json.prune Json.depthLimit (toJson a))).toOption := by
  rw [readText?, text, Json.read?_compact_eq h, Option.bind_some]

theorem Decode.depthMembers_le_of_fields {members : List (String × Json)} {k : Nat} {fs : Fields}
    (h : fields (.object (Json.pruneMembers k members)) = .ok fs) :
    Json.depthMembers members ≤ k := by
  rw [fields] at h
  split at h
  · rename_i hreadable
    exact Json.depthMembers_le_of_prune members hreadable
  · cases h

theorem TaskContext.within_of_pruned {c c' : TaskContext} {k : Nat}
    (h : Document.ofJson (Json.prune (k + 2) (toJson c)) = .ok c') : c.Within k := by
  change Decode.record "TaskContext" _ _ (Json.prune (k + 2) (.object _)) = .ok c' at h
  simp only [Json.prune_object, Json.pruneMembers] at h
  rw [Decode.record_object (by rfl) (by decide)] at h
  obtain ⟨agent, -, h⟩ := bind_eq_ok h
  obtain ⟨params, hparams, h⟩ := bind_eq_ok h
  obtain ⟨results, hresults, -⟩ := bind_eq_ok h
  simp only [Given.withDefault, Given.value?, List.map_cons, List.lookup_cons] at hparams hresults
  exact ⟨Decode.depthMembers_le_of_fields hparams, Decode.depthMembers_le_of_fields hresults⟩

theorem Task.within_of_pruned {t t' : Task} {k : Nat}
    (h : Document.ofJson (Json.prune (k + 3) (toJson t)) = .ok t') : t.context.Within k := by
  change Decode.record "Task" _ _ (Json.prune (k + 3) (.object _)) = .ok t' at h
  simp only [Json.prune_object, Json.pruneMembers] at h
  rw [Decode.record_object (by rfl) (by decide)] at h
  obtain ⟨id, -, h⟩ := bind_eq_ok h
  obtain ⟨name, -, h⟩ := bind_eq_ok h
  obtain ⟨typeName, -, h⟩ := bind_eq_ok h
  obtain ⟨context, hcontext, -⟩ := bind_eq_ok h
  simp only [Given.required, Given.value?, List.map_cons, List.lookup_cons] at hcontext
  exact TaskContext.within_of_pruned hcontext

/-- What is read of a pruned list was read of each of its items. -/
theorem Decode.forall_of_pruned {α : Type} [Document α] {as as' : List α} {n : Nat} {P : α → Prop}
    (h : list Document.ofJson (.list (Json.pruneList n (as.map toJson))) = .ok as')
    (hP : ∀ a a' : α, Document.ofJson (Json.prune n (toJson a)) = .ok a' → P a) :
    ∀ a ∈ as, P a := by
  intro a ha
  rw [Json.pruneList_eq_map, List.map_map] at h
  obtain ⟨a', -, ha'⟩ := ok_of_mem_mapM h (List.mem_map_of_mem ha)
  exact hP a a' ha'

theorem Node.within_of_pruned {n n' : Node} {k : Nat}
    (h : Document.ofJson (Json.prune (k + 5) (toJson n)) = .ok n') :
    ∀ t ∈ n.tasks, t.context.Within k := by
  change Decode.record "Node" _ _ (Json.prune (k + 5) (.object _)) = .ok n' at h
  simp only [Json.prune_object, Json.prune_list, Json.pruneMembers] at h
  rw [Decode.record_object (by rfl) (by decide)] at h
  obtain ⟨name, -, h⟩ := bind_eq_ok h
  obtain ⟨participants, -, h⟩ := bind_eq_ok h
  obtain ⟨tasks, htasks, -⟩ := bind_eq_ok h
  simp only [Given.required, Given.value?, List.map_cons, List.lookup_cons] at htasks
  exact Decode.forall_of_pruned htasks fun _ _ => Task.within_of_pruned

theorem Dag.within_of_pruned {d d' : Dag} {k : Nat}
    (h : Document.ofJson (Json.prune (k + 7) (toJson d)) = .ok d') :
    ∀ n ∈ d.nodes, ∀ t ∈ n.tasks, t.context.Within k := by
  change Decode.record "Dag" _ _ (Json.prune (k + 7) (.object _)) = .ok d' at h
  simp only [Json.prune_object, Json.prune_list, Json.pruneMembers] at h
  rw [Decode.record_object (by rfl) (by decide)] at h
  obtain ⟨id, -, h⟩ := bind_eq_ok h
  obtain ⟨name, -, h⟩ := bind_eq_ok h
  obtain ⟨kind, -, h⟩ := bind_eq_ok h
  obtain ⟨nodes, hnodes, -⟩ := bind_eq_ok h
  simp only [Given.required, Given.value?, List.map_cons, List.lookup_cons] at hnodes
  exact Decode.forall_of_pruned hnodes fun _ _ => Node.within_of_pruned

namespace Dag.Valid

variable {d : Dag} (h : d.Valid)
include h

/-- Of a dag that is nested too deeply nothing is read. -/
theorem readText?_eq_none (hdeep : ¬ ∀ n ∈ d.nodes, ∀ t ∈ n.tasks, t.context.Within 120) :
    (Document.readText? (Document.text d) : Option Dag) = none := by
  rw [Document.readText?_text_eq h.faithful.exact]
  cases hpruned : (Document.ofJson (Json.prune Json.depthLimit (toJson d)) : Decoded Dag) with
  | error e => rfl
  | ok d' => exact absurd (Dag.within_of_pruned hpruned) hdeep

/-- A dag survives just when its parameters and results are nested at most 120 deep. -/
theorem survives_iff :
    Document.Survives d ↔ ∀ n ∈ d.nodes, ∀ t ∈ n.tasks, t.context.Within 120 := by
  constructor
  · intro hread
    by_contra hdeep
    rw [Document.Survives, h.readText?_eq_none hdeep] at hread
    cases hread
  · intro hwithin
    exact h.faithful.survives ((Dag.depth_le_iff (k := 120)).2 hwithin)

end Dag.Valid

end Stagewise
