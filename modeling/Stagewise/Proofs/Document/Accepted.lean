import Stagewise.Dag.Build
import Stagewise.Proofs.Document.Nesting
import Stagewise.Proofs.Json.Leaves
/-!
# Specifications that are read

A specification that is read from a text is one that can be written again, as far as it holds no
fractions, and so is the dag that is built from it. The dag may be nested one level too deep.
-/

namespace Stagewise

open Decode (Given)

/-- No fractions. -/
def Fields.Whole (fs : Fields) : Prop := ∀ x, .real x ∉ Json.leavesMembers fs.rows

/-! ### Parts of a value -/

namespace Json.Worded

theorem of_mem_list {items : List Json} (h : (Json.list items).Worded) {j : Json}
    (hj : j ∈ items) : j.Worded :=
  fun n hn => h n (mem_leavesList.2 ⟨j, hj, hn⟩)

theorem of_mem_object {members : List (String × Json)} (h : (Json.object members).Worded)
    {m : String × Json} (hm : m ∈ members) : m.2.Worded :=
  fun n hn => h n (mem_leavesMembers.2 ⟨m, hm, hn⟩)

end Json.Worded

namespace Decode

variable {α : Type}

theorem mem_of_lookup {k : String} {v : α} {l : List (String × α)} (h : l.lookup k = some v) :
    (k, v) ∈ l := by
  induction l with
  | nil => cases h
  | cons e l ih =>
    rw [List.lookup_cons] at h
    split at h
    · rename_i hk
      rw [← Option.some.inj h, eq_of_beq hk]
      exact List.mem_cons_self
    · exact List.mem_cons_of_mem e (ih h)

theorem mem_of_membersNamed {names : List String} {members : List (String × Json)}
    {values : List (String × Option Json)} (h : membersNamed names members = .ok values)
    {n : String} {v : Json} (hv : (n, some v) ∈ values) : ∃ m ∈ members, m.2 = v := by
  obtain ⟨name, -, hname⟩ := exists_of_mem_mapM h hv
  split at hname
  · cases hname
  · rename_i hfilter
    cases hname
    have hmem := List.mem_filter.1 (hfilter ▸ List.mem_cons_self)
    exact ⟨_, hmem.1, rfl⟩
  · cases hname

/-- The fields of a record that is read are parts of its value. -/
theorem record_eq_ok {name : String} {names : List String} {build : Given → Decoded α} {j : Json}
    {a : α} (h : record name names build j = .ok a) (hj : j.Worded) :
    ∃ g : Given, build g = .ok a ∧ ∀ n v, g.value? n = some v → v.Worded := by
  have hlookup : ∀ {values : List (String × Option Json)} {n : String} {v : Json},
      (values.lookup n).join = some v → (n, some v) ∈ values := fun h =>
    mem_of_lookup (Option.join_eq_some_iff.1 h)
  cases j with
  | object members =>
    obtain ⟨values, hvalues, h⟩ := bind_eq_ok h
    refine ⟨_, h, fun n v hv => ?_⟩
    obtain ⟨m, hm, rfl⟩ := mem_of_membersNamed hvalues (hlookup hv)
    exact hj.of_mem_object hm
  | list items =>
    obtain ⟨b, hb, h⟩ := bind_eq_ok h
    refine ⟨⟨name, names.zip (items.map some ++ List.replicate names.length none), true⟩, ?_,
      fun n v hv => ?_⟩
    · split at h
      · cases h
      · exact hb.trans h
    · have hmem := (List.of_mem_zip (hlookup hv)).2
      rcases List.mem_append.1 hmem with hmem | hmem
      · obtain ⟨i, hi, heq⟩ := List.mem_map.1 hmem
        exact hj.of_mem_list (Option.some.inj heq ▸ hi)
      · cases (List.mem_replicate.1 hmem).2
  | null | bool | int | real | text | unreadable => cases h

namespace Given

variable {g : Given} {name : String} {decode : Json → Decoded α} {a : α}

theorem required_eq_ok (h : g.required name decode = .ok a) :
    ∃ v, g.value? name = some v ∧ decode v = .ok a := by
  rw [required] at h
  split at h
  · exact ⟨_, ‹_›, h⟩
  · cases h

theorem withDefault_eq_ok {value : α} (h : g.withDefault name decode value = .ok a) :
    a = value ∨ ∃ v, g.value? name = some v ∧ decode v = .ok a := by
  rw [withDefault] at h
  split at h
  · exact .inr ⟨_, ‹_›, h⟩
  · exact .inl (Except.ok.inj h).symm

end Given

theorem list_eq_ok {item : Json → Decoded α} {j : Json} {as : List α}
    (h : list item j = .ok as) : ∃ items, j = .list items ∧ items.mapM item = .ok as := by
  cases j with
  | list items => exact ⟨items, rfl, h⟩
  | null | bool | int | real | text | object | unreadable => cases h

theorem fields_eq_ok {j : Json} {fs : Fields} (h : fields j = .ok fs) :
    ∃ members, j = .object members ∧ Json.isReadableMembers members = true ∧
      fs = Json.normalizeMembers members := by
  cases j with
  | object members =>
    rw [fields] at h
    split at h
    · exact ⟨members, rfl, ‹_›, (Except.ok.inj h).symm⟩
    · cases h
  | null | bool | int | real | text | list | unreadable => cases h

/-- Free fields that are read are kept by a text, unless they hold fractions. -/
theorem plain_of_fields {j : Json} {fs : Fields} (h : fields j = .ok fs) (hj : j.Worded)
    (hwhole : fs.Whole) : fs.Plain := by
  obtain ⟨members, rfl, hreadable, rfl⟩ := fields_eq_ok h
  have hleaves := Json.leavesMembers_normalize_subset members
  refine ⟨(Json.isSortedMembers_iff.1 (Json.isSortedMembers_normalize members)).2,
    Json.isExactMembers_of_leaves _ ?_⟩
  exact {
    words n hn := hj n (hleaves hn)
    whole := hwhole
    readable hu := (Json.isReadableMembers_iff members).1 hreadable (hleaves hu) }

end Decode

/-! ### What is submitted -/

theorem TaskSpec.valid_of_ofJson {j : Json} {t : TaskSpec} (h : Document.ofJson j = .ok t)
    (hj : j.Worded) (hwhole : t.params.Whole) : t.Valid := by
  obtain ⟨g, h, hparts⟩ := Decode.record_eq_ok h hj
  obtain ⟨name, -, h⟩ := bind_eq_ok h
  obtain ⟨typeName, -, h⟩ := bind_eq_ok h
  obtain ⟨agent, -, h⟩ := bind_eq_ok h
  obtain ⟨params, hparams, h⟩ := bind_eq_ok h
  obtain rfl := Except.ok.inj h
  rcases Decode.Given.withDefault_eq_ok hparams with rfl | ⟨v, hv, hparams⟩
  · exact ⟨.empty⟩
  · exact ⟨Decode.plain_of_fields hparams (hparts _ v hv) hwhole⟩

theorem NodeSpec.valid_of_ofJson {j : Json} {n : NodeSpec} (h : Document.ofJson j = .ok n)
    (hj : j.Worded) (hwhole : ∀ t ∈ n.tasks, t.params.Whole) : n.Valid := by
  obtain ⟨g, h, hparts⟩ := Decode.record_eq_ok h hj
  obtain ⟨name, -, h⟩ := bind_eq_ok h
  obtain ⟨participants, -, h⟩ := bind_eq_ok h
  obtain ⟨tasks, htasks, h⟩ := bind_eq_ok h
  obtain rfl := Except.ok.inj h
  obtain ⟨v, hv, htasks⟩ := Decode.Given.required_eq_ok htasks
  obtain ⟨items, rfl, htasks⟩ := Decode.list_eq_ok htasks
  refine ⟨fun t ht => ?_⟩
  obtain ⟨i, hi, hit⟩ := exists_of_mem_mapM htasks ht
  exact TaskSpec.valid_of_ofJson hit ((hparts _ _ hv).of_mem_list hi) (hwhole t ht)

/-- A specification that is read from a text can be written, as far as it holds no fractions. -/
theorem DagSpec.valid_of_readText? {text : String} {spec : DagSpec}
    (h : Document.readText? text = some spec)
    (hwhole : ∀ n ∈ spec.nodes, ∀ t ∈ n.tasks, t.params.Whole) : spec.Valid := by
  obtain ⟨j, hread, h⟩ := Document.exists_of_readText? h
  have hj := Json.read?_worded hread
  obtain ⟨g, h, hparts⟩ := Decode.record_eq_ok h hj
  obtain ⟨name, -, h⟩ := bind_eq_ok h
  obtain ⟨kind, -, h⟩ := bind_eq_ok h
  obtain ⟨nodes, hnodes, h⟩ := bind_eq_ok h
  obtain rfl := Except.ok.inj h
  obtain ⟨v, hv, hnodes⟩ := Decode.Given.required_eq_ok hnodes
  obtain ⟨items, rfl, hnodes⟩ := Decode.list_eq_ok hnodes
  refine ⟨fun n hn => ?_⟩
  obtain ⟨i, hi, hin⟩ := exists_of_mem_mapM hnodes hn
  exact NodeSpec.valid_of_ofJson hin ((hparts _ _ hv).of_mem_list hi) (hwhole n hn)

/-! ### What is built -/

namespace DagSpec

variable {r : Registry} {ids : FreshIds} {now : Timestamp}

/-- A task that is made from its specification, before anything has happened to it. -/
structure Made (spec : TaskSpec) (t : Task) : Prop where
  context : t.context = ⟨spec.agent, spec.params, .empty⟩
  startedAt : t.startedAt = none
  finishedAt : t.finishedAt = none

theorem made_of_makeTask {id : TaskId} {spec : TaskSpec} {t : Task}
    (h : makeTask r id spec = .ok t) : Made spec t := by
  obtain ⟨capabilities, -, h⟩ := bind_eq_ok h
  obtain rfl := Except.ok.inj h
  exact ⟨rfl, rfl, rfl⟩

theorem Made.valid_iff {spec : TaskSpec} {t : Task} (h : Made spec t) : spec.Valid ↔ t.Valid := by
  constructor
  · intro hspec
    refine ⟨?_, ?_, ?_⟩
    · rw [h.context]
      exact ⟨hspec.params, .empty⟩
    · rw [h.startedAt]
      nofun
    · rw [h.finishedAt]
      nofun
  · intro ht
    have hparams := ht.context.params
    rw [h.context] at hparams
    exact ⟨hparams⟩

theorem Made.within_iff {spec : TaskSpec} {t : Task} (h : Made spec t) (k : Nat) :
    Json.depthMembers spec.params.rows ≤ k ↔ t.context.Within k := by
  rw [h.context, TaskContext.Within]
  exact (and_iff_left (Nat.zero_le k)).symm

theorem tasks_of_makeNode {ids : Nat → TaskId} {spec : NodeSpec} {n : Node}
    (h : makeNode r ids spec = .ok n) : List.Forall₂ Made spec.tasks n.tasks := by
  rw [makeNode] at h
  split at h
  · cases h
  · obtain ⟨tasks, htasks, h⟩ := bind_eq_ok h
    obtain rfl := Except.ok.inj h
    exact forall₂_of_mapM_zipIdx htasks fun _ _ _ => made_of_makeTask

theorem of_build {spec : DagSpec} {d : Dag} (h : spec.build r ids now = .ok d) :
    List.Forall₂ (fun s n => List.Forall₂ Made s.tasks n.tasks) spec.nodes d.nodes ∧
      d.stage = 1 ∧ d.maxStage = d.nodes.length ∧ d.version = 0 ∧ d.createdAt = now ∧
      d.updatedAt = now := by
  rw [build] at h
  split at h
  · cases h
  split at h
  · cases h
  obtain ⟨nodes, hnodes, h⟩ := bind_eq_ok h
  obtain rfl := Except.ok.inj h
  exact ⟨forall₂_of_mapM_zipIdx hnodes fun _ _ _ => tasks_of_makeNode, rfl, rfl, rfl, rfl, rfl⟩

/-- What is built of a specification that can be written can be written. -/
theorem valid_of_build {spec : DagSpec} {d : Dag} (h : spec.build r ids now = .ok d)
    (hspec : spec.Valid) (hnow : now.Valid) (hfew : spec.nodes.length < 2 ^ 64) : d.Valid := by
  obtain ⟨hnodes, hstage, hmaxStage, hversion, hcreated, hupdated⟩ := of_build h
  have hvalid : (∀ s ∈ spec.nodes, s.Valid) ↔ ∀ n ∈ d.nodes, n.Valid := by
    refine forall_mem_iff_of_forall₂ hnodes fun s n hsn => ?_
    have htasks := forall_mem_iff_of_forall₂ hsn fun _ _ => Made.valid_iff
    exact ⟨fun hs => ⟨htasks.1 hs.tasks⟩, fun hn => ⟨htasks.2 hn.tasks⟩⟩
  refine ⟨hvalid.1 hspec.nodes, ?_, ?_, ?_, hcreated ▸ hnow, hupdated ▸ hnow⟩
  · rw [hstage]
    decide
  · rw [hmaxStage, ← hnodes.length_eq]
    exact hfew
  · rw [hversion]
    decide

/-- A dag is nested one level deeper than the specification that it is built from. -/
theorem within_of_build {spec : DagSpec} {d : Dag} (h : spec.build r ids now = .ok d) (k : Nat) :
    (∀ s ∈ spec.nodes, ∀ t ∈ s.tasks, Json.depthMembers t.params.rows ≤ k) ↔
      ∀ n ∈ d.nodes, ∀ t ∈ n.tasks, t.context.Within k := by
  refine forall_mem_iff_of_forall₂ (of_build h).1 fun s n hsn => ?_
  exact forall_mem_iff_of_forall₂ hsn fun _ _ hst => hst.within_iff k

end DagSpec

end Stagewise
