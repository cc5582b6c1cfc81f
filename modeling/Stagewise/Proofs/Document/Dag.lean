import Stagewise.Proofs.Document.Event
import Stagewise.Proofs.Json.Free
/-!
# Dags read back

The document of a dag, of its tasks and of their logs stands for it, and its text keeps it. Counts
have to be words of 64 bits, times have to be points in time that can be represented, and free
parameters and results must not hold fractions.
-/

namespace Stagewise

open Decode (Given)

/-- The document of a value stands for it, and a text keeps the document. -/
structure Document.Faithful {α : Type} [Document α] (a : α) : Prop where
  decoded : Document.ofJson (toJson a) = .ok a
  exact : (toJson a).isExact = true

/-- The text of a record is read back as the record. -/
def Document.Survives {α : Type} [Document α] (a : α) : Prop :=
  Document.readText? (Document.text a) = some a

theorem Document.Survives.read {α : Type} [Document α] {a : α} (h : Document.Survives a) :
    ∃ j, Json.read? (Document.text a) = some j ∧ (Document.ofJson j : Decoded α) = .ok a :=
  Document.exists_of_readText? h

theorem Document.Faithful.survives {α : Type} [Document α] {a : α}
    (h : Document.Faithful a) (hdepth : (toJson a).depth ≤ Json.depthLimit) :
    Document.Survives a :=
  Document.readText?_text h.decoded h.exact hdepth

theorem Document.Faithful.exact_map {α : Type} [Document α] {as : List α}
    (h : ∀ a ∈ as, Document.Faithful a) : Json.isExactList (as.map toJson) = true := by
  apply Json.isExactList_iff.2
  intro j hj
  obtain ⟨a, ha, rfl⟩ := List.mem_map.1 hj
  exact (h a ha).exact

theorem Document.Faithful.decoded_map {α : Type} [Document α] {as : List α}
    (h : ∀ a ∈ as, Document.Faithful a) :
    Decode.list Document.ofJson (.list (as.map toJson)) = .ok as :=
  Decode.list_map fun a ha => (h a ha).decoded

theorem Json.isWord_of_lt {n : Nat} (h : n < 2 ^ 64) : Json.isWord n = true := by
  simp only [Json.isWord, Bool.and_eq_true, decide_eq_true_eq]
  omega

/-! ### Words with a name -/

@[simp] theorem TaskStatus.ofJson_toJson (s : TaskStatus) : Document.ofJson (toJson s) = .ok s := by
  cases s <;> rfl

@[simp] theorem DagStatus.ofJson_toJson (s : DagStatus) : Document.ofJson (toJson s) = .ok s := by
  cases s <;> rfl

@[simp] theorem DagKind.ofJson_toJson (k : DagKind) : Document.ofJson (toJson k) = .ok k := by
  cases k <;> rfl

@[simp] theorem Capabilities.ofJson_toJson (c : Capabilities) :
    Document.ofJson (toJson c) = .ok c := by
  change Decode.record "Capabilities" _ _ (.object _) = .ok c
  rw [Decode.record_object (by rfl) (by decide)]
  simp [Given.required, Given.value?, List.lookup_cons, Decode.bool]

theorem Agent.faithful (a : Agent) : Document.Faithful a where
  decoded := a.ofJson_toJson
  exact := by
    have hport := Json.isWord_of_lt (Nat.lt_of_lt_of_le a.port.toNat_lt (by decide))
    change Json.isExactMembers _ = true
    simp [Json.isExactMembers, Json.isExact, hport]

/-! ### Logs and contexts -/

structure LogEntry.Valid (e : LogEntry) : Prop where
  timestamp : e.timestamp.Valid

theorem LogEntry.Valid.faithful {e : LogEntry} (h : e.Valid) : Document.Faithful e where
  decoded := by
    have htime := h.timestamp.ofJson_toJson
    change Decode.record "TaskLogEntry" _ _ (.object _) = .ok e
    rw [Decode.record_object (by rfl) (by decide)]
    simp [Given.required, Given.value?, List.lookup_cons, htime]
  exact := rfl

structure TaskContext.Valid (c : TaskContext) : Prop where
  params : c.params.Plain
  results : c.results.Plain

theorem TaskContext.Valid.faithful {c : TaskContext} (h : c.Valid) : Document.Faithful c where
  decoded := by
    have hparams := Decode.fields_object h.params
    have hresults := Decode.fields_object h.results
    change Decode.record "TaskContext" _ _ (.object _) = .ok c
    rw [Decode.record_object (by rfl) (by decide)]
    simp [Given.required, Given.withDefault, Given.value?, List.lookup_cons, hparams, hresults]
  exact := by
    change Json.isExactMembers _ = true
    simp [Json.isExactMembers, Json.isExact, c.executeAgent.faithful.exact, h.params.exact,
      h.results.exact]

/-! ### Tasks, nodes and dags -/

/-- What a task is besides its words: its context and its times can be written. -/
structure Task.Valid (t : Task) : Prop where
  context : t.context.Valid
  startedAt : ∀ time ∈ t.startedAt, time.Valid
  finishedAt : ∀ time ∈ t.finishedAt, time.Valid

theorem Timestamp.decoded_ofOption {time? : Option Timestamp} (h : ∀ time ∈ time?, time.Valid) :
    Decode.optional Document.ofJson (Json.ofOption toJson time?) = .ok time? :=
  Decode.optional_ofOption (fun time htime => (h time htime).ofJson_toJson) fun _ => nofun

theorem Timestamp.exact_ofOption (time? : Option Timestamp) :
    (Json.ofOption toJson time?).isExact = true := by
  cases time? <;> rfl

theorem Task.Valid.faithful {t : Task} (h : t.Valid) : Document.Faithful t where
  decoded := by
    have hcontext := h.context.faithful.decoded
    have hresults : Decode.table Document.ofJson
        (.object (t.agentResults.rows.map fun e => (e.1, toJson e.2))) = .ok t.agentResults :=
      Decode.table_map fun e _ => e.2.ofJson_toJson
    have hstarted := Timestamp.decoded_ofOption h.startedAt
    have hfinished := Timestamp.decoded_ofOption h.finishedAt
    change Decode.record "Task" _ _ (.object _) = .ok t
    rw [Decode.record_object (by rfl) (by decide)]
    simp [Given.required, Given.withDefault, Given.optional, Given.value?, List.lookup_cons,
      hcontext, hresults, hstarted, hfinished]
  exact := by
    have hresults :
        Json.isExactMembers (t.agentResults.rows.map fun e => (e.1, toJson e.2)) = true := by
      apply Json.isExactMembers_iff.2
      intro m hm
      obtain ⟨e, -, rfl⟩ := List.mem_map.1 hm
      rfl
    change Json.isExactMembers _ = true
    simp only [Json.isExactMembers, Bool.and_true, Bool.and_eq_true]
    exact ⟨rfl, rfl, rfl, h.context.faithful.exact, rfl, rfl, hresults,
      Timestamp.exact_ofOption _, Timestamp.exact_ofOption _⟩

structure Node.Valid (n : Node) : Prop where
  tasks : ∀ t ∈ n.tasks, t.Valid

theorem Node.Valid.faithful {n : Node} (h : n.Valid) : Document.Faithful n where
  decoded := by
    have hparticipants := Document.Faithful.decoded_map fun a (_ : a ∈ n.participants) => a.faithful
    have htasks := Document.Faithful.decoded_map fun t ht => (h.tasks t ht).faithful
    change Decode.record "Node" _ _ (.object _) = .ok n
    rw [Decode.record_object (by rfl) (by decide)]
    simp [Given.required, Given.withDefault, Given.value?, List.lookup_cons, hparticipants, htasks]
  exact := by
    change Json.isExactMembers _ = true
    simp only [Json.isExactMembers, Bool.and_true, Bool.and_eq_true]
    exact ⟨rfl, Document.Faithful.exact_map fun a _ => a.faithful,
      Document.Faithful.exact_map fun t ht => (h.tasks t ht).faithful⟩

/-- What a dag is besides its names: its tasks and times can be written, and its counts are words of
64 bits. -/
structure Dag.Valid (d : Dag) : Prop where
  nodes : ∀ n ∈ d.nodes, n.Valid
  stage : d.stage < 2 ^ 64
  maxStage : d.maxStage < 2 ^ 64
  version : d.version < 2 ^ 64
  createdAt : d.createdAt.Valid
  updatedAt : d.updatedAt.Valid

theorem Dag.Valid.faithful {d : Dag} (h : d.Valid) : Document.Faithful d where
  decoded := by
    have hnodes := Document.Faithful.decoded_map fun n hn => (h.nodes n hn).faithful
    have hstage := Decode.unsigned_ofNat h.stage
    have hmaxStage := Decode.unsigned_ofNat h.maxStage
    have hversion := Decode.unsigned_ofNat h.version
    have hcreated := h.createdAt.ofJson_toJson
    have hupdated := h.updatedAt.ofJson_toJson
    change Decode.record "Dag" _ _ (.object _) = .ok d
    rw [Decode.record_object (by rfl) (by decide)]
    simp [Given.required, Given.withDefault, Given.value?, List.lookup_cons, hnodes, hstage,
      hmaxStage, hversion, hcreated, hupdated]
  exact := by
    change Json.isExactMembers _ = true
    simp only [Json.isExactMembers, Bool.and_true, Bool.and_eq_true]
    exact ⟨rfl, rfl, rfl, Document.Faithful.exact_map fun n hn => (h.nodes n hn).faithful,
      Json.isWord_of_lt h.stage, Json.isWord_of_lt h.maxStage, rfl, rfl,
      Json.isWord_of_lt h.version, rfl, rfl⟩

end Stagewise
