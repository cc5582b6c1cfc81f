import Stagewise.Event
import Stagewise.Proofs.Document.Timestamp
import Stagewise.Proofs.Document.Uuid
/-!
# Events read back

The text of an event is read as that event and stands on one line, whatever its texts hold. Stages
have to be words of 64 bits and times have to be points in time that can be represented.
-/

namespace Stagewise

open Decode (Given)

@[simp] theorem DagId.ofJson_toJson (i : DagId) : Document.ofJson (toJson i) = .ok i := by
  change Except.map DagId.mk (Document.ofJson (toJson i.uuid)) = .ok i
  rw [Uuid.ofJson_toJson, Decode.ok_map]

@[simp] theorem TaskId.ofJson_toJson (i : TaskId) : Document.ofJson (toJson i) = .ok i := by
  change Except.map TaskId.mk (Document.ofJson (toJson i.uuid)) = .ok i
  rw [Uuid.ofJson_toJson, Decode.ok_map]

@[simp] theorem Agent.ofJson_toJson (a : Agent) : Document.ofJson (toJson a) = .ok a := by
  have hport : Decode.unsigned 16 (.int a.port.toNat) = .ok a.port.toNat :=
    Decode.unsigned_ofNat (UInt16.toNat_lt a.port)
  simp only [Document.ofJson, toJson, Document.toJson]
  rw [Decode.record_object (by rfl) (by decide)]
  simp [Given.peek, Given.required, Given.value?, List.lookup_cons, hport]

@[simp] theorem Operator.ofJson_toJson (o : Operator) : Document.ofJson (toJson o) = .ok o := by
  cases o <;> rfl

@[simp] theorem Action.ofJson_toJson (a : Action) : Document.ofJson (toJson a) = .ok a := by
  cases a <;> rfl

namespace EventType

/-- The stages that an event names. -/
def stages : EventType → List Nat
  | .dagSubmitted _ maxStage => [maxStage]
  | .dagFailed stage _ | .dagRecovered stage | .stageStarted stage _ | .stageRolledBack stage _ =>
    [stage]
  | .stageAdvanced source target => [source, target]
  | _ => []

theorem ofNamed_fields {e : EventType} (h : ∀ n ∈ e.stages, n < 2 ^ 64) :
    ofNamed e.name (.object e.fields) = .ok e := by
  have hword : ∀ n ∈ e.stages, Decode.unsigned 64 (.int n) = .ok n := fun n hn =>
    Decode.unsigned_ofNat (h n hn)
  cases e with
  | dagSucceeded | dagCancelled | dagRolledBack => rfl
  | _ =>
    simp only [stages, List.forall_mem_cons, List.not_mem_nil, false_imp_iff, implies_true,
      and_true] at hword
    simp only [EventType.name, fields, ofNamed]
    rw [Decode.record_object (by rfl) (by decide)]
    simp [Given.required, Given.value?, List.lookup_cons, hword]

theorem filter_fields (e : EventType) :
    e.fields.filter (·.1 == "type") = [] ∧ e.fields.filter (·.1 != "type") = e.fields := by
  cases e <;> exact ⟨rfl, rfl⟩

theorem isReadableMembers_fields (e : EventType) : Json.isReadableMembers e.fields = true := by
  cases e <;> rfl

theorem ofJson_toJson {e : EventType} (h : ∀ n ∈ e.stages, n < 2 ^ 64) :
    Document.ofJson (toJson e) = .ok e := by
  change ofJson (.object (("type", .text e.name) :: e.fields)) = .ok e
  obtain ⟨hnone, hall⟩ := e.filter_fields
  have hreadable : (Json.object (("type", .text e.name) :: e.fields)).isReadable = true := by
    simp [Json.isReadable, Json.isReadableMembers, e.isReadableMembers_fields]
  simp [ofJson, hreadable, hnone, hall, ofNamed_fields h]

theorem isExact_toJson {e : EventType} (h : ∀ n ∈ e.stages, n < 2 ^ 64) :
    (toJson e).isExact = true := by
  have hword : ∀ n ∈ e.stages, Json.isWord n = true := fun n hn => by
    have := h n hn
    simp only [Json.isWord, Bool.and_eq_true, decide_eq_true_eq]
    omega
  have hport : ∀ p : UInt16, Json.isWord p.toNat = true := fun p => by
    have := p.toNat_lt
    simp only [Json.isWord, Bool.and_eq_true, decide_eq_true_eq]
    omega
  cases e <;>
    simp [toJson, Document.toJson, fields, Json.isExact, Json.isExactMembers, hport,
      stages] at hword ⊢ <;> simp [hword]

theorem depth_toJson_le (e : EventType) : (toJson e).depth ≤ 2 := by
  cases e <;> simp [toJson, Document.toJson, fields, Json.depth, Json.depthMembers]

end EventType

namespace Event

/-- What an event is: it happened at a point in time, and the stages it names are words of 64
bits. -/
structure Valid (e : Event) : Prop where
  timestamp : e.timestamp.Valid
  stages : ∀ n ∈ e.type.stages, n < 2 ^ 64

theorem depth_toJson_le (e : Event) : (toJson e).depth ≤ Json.depthLimit := by
  have := EventType.depth_toJson_le e.type
  have hdepth : (toJson e).depth = (toJson e.type).depth + 1 := by
    change Json.depthMembers [("id", .text e.id), ("dag_id", toJson e.dagId),
      ("timestamp", toJson e.timestamp), ("event_type", toJson e.type)] + 1 = _
    simp only [Json.depthMembers]
    simp [toJson, Document.toJson, Json.depth]
  simp only [Json.depthLimit]
  omega

namespace Valid

variable {e : Event} (h : e.Valid)
include h

theorem ofJson_toJson : Document.ofJson (toJson e) = .ok e := by
  have htime := h.timestamp.ofJson_toJson
  have htype := EventType.ofJson_toJson h.stages
  change Decode.record "Event" _ _ (.object [("id", .text e.id), ("dag_id", toJson e.dagId),
    ("timestamp", toJson e.timestamp), ("event_type", toJson e.type)]) = .ok e
  rw [Decode.record_object (by rfl) (by decide)]
  simp [Given.required, Given.value?, List.lookup_cons, htime, htype]

theorem isExact_toJson : (toJson e).isExact = true := by
  change Json.isExactMembers [("id", .text e.id), ("dag_id", toJson e.dagId),
    ("timestamp", toJson e.timestamp), ("event_type", toJson e.type)] = true
  simp only [Json.isExactMembers, EventType.isExact_toJson h.stages]
  rfl

theorem readText?_text : Document.readText? (Document.text e) = some e :=
  Document.readText?_text h.ofJson_toJson h.isExact_toJson (depth_toJson_le e)

theorem printable_text : Json.Printable (Document.text e).toList := by
  simpa [Document.text, Json.compact] using Json.printable_written _ h.isExact_toJson

end Valid

end Event

end Stagewise
