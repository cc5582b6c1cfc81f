import Stagewise.Dispatch.Message
import Stagewise.Proofs.Document.Dag
import Stagewise.Spec
/-!
# Messages read back

Specifications, dispatches and what agents report back are read as they are written, and so is
everything else that the store, the journal and the wire carry.
-/

namespace Stagewise

open Decode (Given)

/-! ### Specifications -/

structure TaskSpec.Valid (t : TaskSpec) : Prop where
  params : t.params.Plain

theorem TaskSpec.Valid.faithful {t : TaskSpec} (h : t.Valid) : Document.Faithful t where
  decoded := by
    have hparams := Decode.fields_object h.params
    change Decode.record "TaskSpec" _ _ (.object _) = .ok t
    rw [Decode.record_object (by rfl) (by decide)]
    simp [Given.required, Given.withDefault, Given.value?, List.lookup_cons, hparams]
  exact := by
    change Json.isExactMembers _ = true
    simp only [Json.isExactMembers, Bool.and_true, Bool.and_eq_true]
    exact ⟨rfl, rfl, t.agent.faithful.exact, h.params.exact⟩

structure NodeSpec.Valid (n : NodeSpec) : Prop where
  tasks : ∀ t ∈ n.tasks, t.Valid

theorem NodeSpec.Valid.faithful {n : NodeSpec} (h : n.Valid) : Document.Faithful n where
  decoded := by
    have hparticipants := Document.Faithful.decoded_map fun a (_ : a ∈ n.participants) => a.faithful
    have htasks := Document.Faithful.decoded_map fun t ht => (h.tasks t ht).faithful
    change Decode.record "NodeSpec" _ _ (.object _) = .ok n
    rw [Decode.record_object (by rfl) (by decide)]
    simp [Given.required, Given.withDefault, Given.value?, List.lookup_cons, hparticipants, htasks]
  exact := by
    change Json.isExactMembers _ = true
    simp only [Json.isExactMembers, Bool.and_true, Bool.and_eq_true]
    exact ⟨rfl, Document.Faithful.exact_map fun a _ => a.faithful,
      Document.Faithful.exact_map fun t ht => (h.tasks t ht).faithful⟩

structure DagSpec.Valid (s : DagSpec) : Prop where
  nodes : ∀ n ∈ s.nodes, n.Valid

theorem DagSpec.Valid.faithful {s : DagSpec} (h : s.Valid) : Document.Faithful s where
  decoded := by
    have hnodes := Document.Faithful.decoded_map fun n hn => (h.nodes n hn).faithful
    change Decode.record "DagSpec" _ _ (.object _) = .ok s
    rw [Decode.record_object (by rfl) (by decide)]
    simp [Given.required, Given.withDefault, Given.value?, List.lookup_cons, hnodes]
  exact := by
    change Json.isExactMembers _ = true
    simp only [Json.isExactMembers, Bool.and_true, Bool.and_eq_true]
    exact ⟨rfl, rfl, Document.Faithful.exact_map fun n hn => (h.nodes n hn).faithful⟩

/-! ### Dispatches -/

structure DispatchRequest.Valid (r : DispatchRequest) : Prop where
  task : r.task.Valid

theorem DispatchRequest.Valid.faithful {r : DispatchRequest} (h : r.Valid) :
    Document.Faithful r where
  decoded := by
    have htask := h.task.faithful.decoded
    change Decode.record "DispatchRequest" _ _ (.object _) = .ok r
    rw [Decode.record_object (by rfl) (by decide)]
    simp [Given.required, Given.value?, List.lookup_cons, htask]
  exact := by
    change Json.isExactMembers _ = true
    simp only [Json.isExactMembers, Bool.and_true, Bool.and_eq_true]
    exact ⟨rfl, h.task.faithful.exact, rfl⟩

structure Outcome.Valid (o : Outcome) : Prop where
  context : o.context.Valid
  logs : ∀ e ∈ o.logs, e.Valid

theorem Outcome.Valid.faithful {o : Outcome} (h : o.Valid) : Document.Faithful o where
  decoded := by
    have herror : Decode.optional Decode.text (Json.ofOption .text o.error) = .ok o.error :=
      Decode.optional_ofOption (fun _ _ => rfl) fun _ => nofun
    have hcontext := h.context.faithful.decoded
    have hlogs := Document.Faithful.decoded_map fun e he => (h.logs e he).faithful
    change Decode.record "TaskOutcome" _ _ (.object _) = .ok o
    rw [Decode.record_object (by rfl) (by decide)]
    simp [Given.required, Given.withDefault, Given.optional, Given.value?, List.lookup_cons, herror,
      hcontext, hlogs]
  exact := by
    have herror : (Json.ofOption .text o.error).isExact = true := by cases o.error <;> rfl
    change Json.isExactMembers _ = true
    simp only [Json.isExactMembers, Bool.and_true, Bool.and_eq_true]
    exact ⟨rfl, o.agent.faithful.exact, rfl, herror, h.context.faithful.exact,
      Document.Faithful.exact_map fun e he => (h.logs e he).faithful⟩

/-! ### Everything that is stored or sent -/

/-- The text of a value is read as the value, and what is read has the same document again. -/
def Document.RoundTrips {α : Type} [Document α] (a : α) : Prop :=
  Document.Survives a ∧
    ((Document.readText? (Document.text a) : Option α).map toJson) = some (toJson a)

theorem Document.Faithful.roundTrips {α : Type} [Document α] {a : α} (h : Document.Faithful a)
    (hdepth : (toJson a).depth ≤ Json.depthLimit) : Document.RoundTrips a := by
  have hread : Document.readText? (Document.text a) = some a := h.survives hdepth
  exact ⟨hread, by rw [hread, Option.map_some]⟩

theorem Event.Valid.faithful {e : Event} (h : e.Valid) : Document.Faithful e :=
  ⟨h.ofJson_toJson, h.isExact_toJson⟩

/-- One format serves the store, the journal, the agents and their clients: every dag, event,
specification, dispatch, report and log line whose document is not nested too deeply is read as it
was written. -/
theorem roundTrips_of_depth_le :
    (∀ d : Dag, d.Valid → (toJson d).depth ≤ Json.depthLimit → Document.RoundTrips d) ∧
    (∀ e : Event, e.Valid → (toJson e).depth ≤ Json.depthLimit → Document.RoundTrips e) ∧
    (∀ s : DagSpec, s.Valid → (toJson s).depth ≤ Json.depthLimit → Document.RoundTrips s) ∧
    (∀ r : DispatchRequest, r.Valid → (toJson r).depth ≤ Json.depthLimit →
      Document.RoundTrips r) ∧
    (∀ o : Outcome, o.Valid → (toJson o).depth ≤ Json.depthLimit → Document.RoundTrips o) ∧
    (∀ l : LogEntry, l.Valid → (toJson l).depth ≤ Json.depthLimit → Document.RoundTrips l) := by
  refine ⟨fun d h => ?_, fun e h => ?_, fun s h => ?_, fun r h => ?_, fun o h => ?_, fun l h => ?_⟩
  all_goals exact h.faithful.roundTrips

namespace Sample

/-- A time with all nine digits of its fraction. -/
def moment : Timestamp := ⟨1709618400, 123456789⟩

def leapSecond : Timestamp := ⟨1483228799, 1999999999⟩

/-- Free values of every kind that a text keeps: the smallest and the largest words, control
characters, letters beyond the first plane, and lists and objects with and without members. -/
def parameters : Fields :=
  .ofList
    [("", .list [.null, .bool true, .int (-9223372036854775808), .int 18446744073709551615]),
     ("limits", .object [("\x00\n\"\\", .text "\x1f𝄞é"), ("none", .object [])]),
     ("ж", .list [.list [], .text ""])]

def finishedTask : Task :=
  { id := ⟨⟨1⟩⟩, name := "copy", typeName := "copy_rows"
    context := ⟨⟨"::1", 65535⟩, parameters, .empty⟩, capabilities := .standard, status := .rolledBack
    agentResults := .ofList [("10.0.0.1:80", .failed), ("10.0.0.2:80", .skipped)]
    startedAt := some moment, finishedAt := some leapSecond }

def finishedDag : Dag :=
  { id := ⟨⟨0xffffffffffffffffffffffffffffffff⟩⟩, name := "move", kind := .upgrade
    nodes := [⟨"first", [⟨"10.0.0.1", 80⟩], [finishedTask]⟩, ⟨"second", [], []⟩]
    stage := 0, maxStage := 18446744073709551615, status := .cancelled, operator := .cancel
    version := 18446744073709551615, createdAt := moment, updatedAt := leapSecond }

def submission : Event := ⟨"", ⟨⟨2⟩⟩, moment, .dagSubmitted "move" 18446744073709551615⟩

def order : DagSpec :=
  ⟨"move", .standard, [⟨"first", [], [⟨"copy", "copy_rows", ⟨"::1", 0⟩, parameters⟩]⟩]⟩

def request : DispatchRequest := ⟨⟨⟨2⟩⟩, finishedTask, .rollback⟩

def line : LogEntry := ⟨leapSecond, "row 1\r\n\trow 2"⟩

def outcome : Outcome :=
  ⟨⟨⟨1⟩⟩, ⟨"::1", 65535⟩, .failed, some "no such row", finishedTask.context, [line]⟩

theorem valid_moment : moment.Valid := ⟨by decide, by decide, by decide⟩

theorem valid_leapSecond : leapSecond.Valid := ⟨by decide, by decide, by decide⟩

theorem plain_parameters : parameters.Plain := ⟨by decide +kernel, by decide⟩

theorem valid_finishedTask : finishedTask.Valid where
  context := ⟨plain_parameters, .empty⟩
  startedAt := by
    rintro _ ⟨⟩
    exact valid_moment
  finishedAt := by
    rintro _ ⟨⟩
    exact valid_leapSecond

theorem valid_finishedDag : finishedDag.Valid where
  nodes := by
    intro n hn
    refine ⟨fun t ht => ?_⟩
    simp only [finishedDag, List.mem_cons, List.not_mem_nil, or_false] at hn
    rcases hn with rfl | rfl
    · rw [List.mem_singleton.1 ht]
      exact valid_finishedTask
    · nomatch ht
  stage := by decide
  maxStage := by decide
  version := by decide
  createdAt := valid_moment
  updatedAt := valid_leapSecond

theorem valid_order : order.Valid := by
  refine ⟨fun n hn => ⟨fun t ht => ⟨?_⟩⟩⟩
  obtain rfl := List.mem_singleton.1 hn
  obtain rfl := List.mem_singleton.1 ht
  exact plain_parameters

theorem valid_outcome : outcome.Valid := by
  refine ⟨valid_finishedTask.context, fun e he => ⟨?_⟩⟩
  obtain rfl := List.mem_singleton.1 he
  exact valid_leapSecond

end Sample

theorem roundTrips_of_depth_le_samples :
    (Sample.finishedDag.Valid ∧ Document.RoundTrips Sample.finishedDag) ∧
    (Sample.submission.Valid ∧ Document.RoundTrips Sample.submission) ∧
    (Sample.order.Valid ∧ Document.RoundTrips Sample.order) ∧
    (Sample.request.Valid ∧ Document.RoundTrips Sample.request) ∧
    (Sample.outcome.Valid ∧ Document.RoundTrips Sample.outcome) ∧
    (Sample.line.Valid ∧ Document.RoundTrips Sample.line) := by
  obtain ⟨hdags, hevents, hspecs, hrequests, houtcomes, hlines⟩ := roundTrips_of_depth_le
  have hdag := Sample.valid_finishedDag
  have hevent : Sample.submission.Valid := ⟨Sample.valid_moment, by decide⟩
  have hspec := Sample.valid_order
  have hrequest : Sample.request.Valid := ⟨Sample.valid_finishedTask⟩
  have houtcome := Sample.valid_outcome
  have hline : Sample.line.Valid := ⟨Sample.valid_leapSecond⟩
  exact ⟨⟨hdag, hdags _ hdag (by decide)⟩, ⟨hevent, hevents _ hevent (by decide)⟩,
    ⟨hspec, hspecs _ hspec (by decide)⟩, ⟨hrequest, hrequests _ hrequest (by decide)⟩,
    ⟨houtcome, houtcomes _ houtcome (by decide)⟩, ⟨hline, hlines _ hline (by decide)⟩⟩

end Stagewise
