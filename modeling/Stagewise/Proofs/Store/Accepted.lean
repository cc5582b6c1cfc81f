import Stagewise.Proofs.Course.Play
import Stagewise.Proofs.Document.Accepted
import Stagewise.Proofs.Document.TooDeep
import Stagewise.Proofs.Store.Rows
/-!
# What is accepted and stored

A dag that is built from a specification is stored whatever its parameters are, but the parameters
lie one level deeper in it than in the specification. Where that is one level too deep, neither the
dag nor a list of all dags can be read any more.
-/

namespace Stagewise

namespace Store

theorem decodeDag_error {t : String} {failure : Failure} (h : decodeDag t = .error failure) :
    failure = .of "Failed to deserialize dag" := by
  rw [decodeDag] at h
  split at h
  · cases h
  · exact (Except.error.inj h).symm

theorem load?_save (s : Store) (d : Dag) :
    (s.save d).load? d.id = (decodeDag (Document.text d)).map some := by
  have hrow : (s.save d).text? d.id = some (Document.text d) := Table.get?_insert_self ..
  rw [load?, hrow]

/-- All dags are listed when every record can be read. -/
theorem list_eq_ok_iff {s : Store} :
    (∃ ds, s.list = .ok ds) ↔ ∀ row ∈ s.dags.rows, ∃ d, decodeDag row.2 = .ok d := by
  constructor
  · rintro ⟨ds, hlist⟩ row hrow
    obtain ⟨read, hread, -⟩ := bind_eq_ok hlist
    obtain ⟨d, -, hd⟩ := ok_of_mem_mapM hread hrow
    exact ⟨d, hd⟩
  · intro hrows
    obtain ⟨read, hread⟩ := exists_mapM_eq_ok hrows
    exact ⟨read.foldl (fun acc d => insertNewest d acc) [], by rw [list, hread]; rfl⟩

/-- A single record that cannot be read keeps all dags from being listed. -/
theorem list_eq_error {s : Store} {row : String × String} (hrow : row ∈ s.dags.rows)
    {failure : Failure} (h : decodeDag row.2 = .error failure) :
    s.list = .error (.of "Failed to deserialize dag") := by
  let decode (r : String × String) := decodeDag r.2
  obtain ⟨failure', hfails⟩ := mapM_error_of_mem (f := decode) hrow h
  obtain ⟨r, -, hr⟩ := exists_of_mapM_error hfails
  rw [list, hfails, decodeDag_error hr]
  rfl

theorem readable_save {d : Dag} (h : Document.Survives d) (s : Store) :
    (s.save d).load? d.id = .ok (some d) ∧
      ((∃ ds, s.list = .ok ds) → ∃ ds, (s.save d).list = .ok ds) := by
  have hdecoded := decodeDag_text h
  refine ⟨by rw [load?_save, hdecoded]; rfl, fun hlist => list_eq_ok_iff.2 fun row hrow => ?_⟩
  rcases Table.mem_insert.1 hrow with rfl | ⟨hrow, -⟩
  · exact ⟨d, hdecoded⟩
  · exact list_eq_ok_iff.1 hlist row hrow

theorem unreadable_save {d : Dag} (h : (Document.readText? (Document.text d) : Option Dag) = none)
    (s : Store) :
    (s.save d).load? d.id = .error (.of "Failed to deserialize dag") ∧
      (s.save d).list = .error (.of "Failed to deserialize dag") := by
  have hdecoded : decodeDag (Document.text d) = .error (.of "Failed to deserialize dag") := by
    rw [decodeDag, h]
  refine ⟨by rw [load?_save, hdecoded]; rfl, ?_⟩
  exact list_eq_error (Table.mem_insert_self (toString d.id) (Document.text d) s.dags) hdecoded

/-- The parameters of a specification that is accepted, without fractions, may be nested more deeply
than what can be read when the dag is stored. Up to 120 lists and objects the dag is loaded as it
was built, and all dags are listed if they were before; beyond that neither is possible. -/
theorem accepted_readable {text : String} {spec : DagSpec} {r : Registry} {ids : FreshIds}
    {now : Timestamp} {d : Dag} (hread : Document.readText? text = some spec)
    (hwhole : ∀ n ∈ spec.nodes, ∀ t ∈ n.tasks, t.params.Whole)
    (hbuild : spec.build r ids now = .ok d) (hnow : now.Valid)
    (hfew : spec.nodes.length < 2 ^ 64) (s : Store) :
    ((∀ n ∈ spec.nodes, ∀ t ∈ n.tasks, Json.depthMembers t.params.rows ≤ 120) →
      (s.save d).load? d.id = .ok (some d) ∧
        ((∃ ds, s.list = .ok ds) → ∃ ds, (s.save d).list = .ok ds)) ∧
    ((∃ n ∈ spec.nodes, ∃ t ∈ n.tasks, 120 < Json.depthMembers t.params.rows) →
      (s.save d).load? d.id = .error (.of "Failed to deserialize dag") ∧
        (s.save d).list = .error (.of "Failed to deserialize dag")) := by
  have hvalid := DagSpec.valid_of_build hbuild (DagSpec.valid_of_readText? hread hwhole) hnow hfew
  have hwithin := DagSpec.within_of_build hbuild 120
  constructor
  · intro hshallow
    exact readable_save (hvalid.survives_iff.2 (hwithin.1 hshallow)) s
  · rintro ⟨n, hn, t, ht, hdeep⟩
    apply unreadable_save
    apply hvalid.readText?_eq_none
    intro hall
    exact absurd (hwithin.2 hall n hn t ht) (Nat.not_le_of_lt hdeep)

end Store

namespace Sample

/-- Lists inside one another. -/
def nest : Nat → Json
  | 0 => .list []
  | n + 1 => .list [nest n]

theorem leaves_nest (n : Nat) : (nest n).leaves = [] := by
  induction n with
  | zero => rfl
  | succ n ih => rw [nest, Json.leaves, Json.leavesList, ih]; rfl

def deepSpec : DagSpec :=
  ⟨"deep", .standard,
    [⟨"only", [], [(TaskSpec.new "a" "steady" worker).param "x" (nest 120)]⟩]⟩

def deepDag : Dag :=
  match deepSpec.build registry ids dawn with
  | .ok d => d
  | .error _ => default

theorem read_deepSpec : Document.readText? (Document.text deepSpec) = some deepSpec := by
  have hvalid : deepSpec.Valid := by
    refine ⟨fun n hn => ⟨fun t ht => ?_⟩⟩
    obtain rfl := List.mem_singleton.1 hn
    obtain rfl := List.mem_singleton.1 ht
    exact ⟨by decide +kernel, by decide +kernel⟩
  exact hvalid.faithful.survives (by decide +kernel)

end Sample

theorem Store.accepted_readable_deep :
    Document.readText? (Document.text Sample.deepSpec) = some Sample.deepSpec ∧
      Sample.deepSpec.build Sample.registry Sample.ids Sample.dawn = .ok Sample.deepDag ∧
      (Store.empty.save Sample.deepDag).load? Sample.deepDag.id
        = .error (.of "Failed to deserialize dag") ∧
      (Store.empty.save Sample.deepDag).list = .error (.of "Failed to deserialize dag") := by
  have hbuild : Sample.deepSpec.build Sample.registry Sample.ids Sample.dawn = .ok Sample.deepDag :=
    rfl
  have hwhole : ∀ n ∈ Sample.deepSpec.nodes, ∀ t ∈ n.tasks, t.params.Whole := by
    intro n hn t ht x hx
    obtain rfl := List.mem_singleton.1 hn
    obtain rfl := List.mem_singleton.1 ht
    have hnone : Json.leavesMembers [("x", Sample.nest 120)] = [] := by
      rw [Json.leavesMembers, Sample.leaves_nest]
      rfl
    exact absurd (hnone ▸ hx) List.not_mem_nil
  have hdeep : ∃ n ∈ Sample.deepSpec.nodes, ∃ t ∈ n.tasks, 120 < Json.depthMembers t.params.rows :=
    ⟨_, List.mem_cons_self, _, List.mem_cons_self, by decide +kernel⟩
  have hdawn : Sample.dawn.Valid := ⟨by decide, by decide, by decide⟩
  exact ⟨Sample.read_deepSpec, hbuild,
    (Store.accepted_readable Sample.read_deepSpec hwhole hbuild hdawn (by decide) .empty).2 hdeep⟩

end Stagewise
