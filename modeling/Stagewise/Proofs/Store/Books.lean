import Mathlib.Logic.Function.Basic
import Stagewise.Proofs.Document.Nesting
import Stagewise.Proofs.Journal.Sorting
import Stagewise.Proofs.Store.Rows
/-!
# The store keeps two maps

Whatever calls a store gets, one after another, its answers are those of two plain maps: from
identifiers to dags, and from identifiers of tasks to lists of log entries. Rows, numbers and texts
do not show, as long as every record that is written survives its text.
-/

namespace Stagewise

/-! ### Plain maps -/

/-- The dag under every identifier, and the log of every task. -/
structure Books where
  dags : DagId → Option Dag
  logs : TaskId → List LogEntry

namespace Books

def empty : Books := ⟨fun _ => none, fun _ => []⟩

def enter (b : Books) (d : Dag) : Books :=
  { b with dags := Function.update b.dags d.id (some d) }

def append (b : Books) (task : TaskId) (entries : List LogEntry) : Books :=
  { b with logs := Function.update b.logs task (b.logs task ++ entries) }

theorem enter_dags_iff {b : Books} {d e : Dag} {id : DagId} :
    (b.enter d).dags id = some e ↔ id = d.id ∧ e = d ∨ id ≠ d.id ∧ b.dags id = some e := by
  by_cases hid : id = d.id
  · simp [enter, hid, eq_comm]
  · simp [enter, hid]

theorem append_logs (b : Books) (task other : TaskId) (entries : List LogEntry) :
    (b.append task entries).logs other =
      if other = task then b.logs other ++ entries else b.logs other := by
  by_cases hother : other = task
  · subst hother
    simp [append]
  · simp [append, hother]

theorem append_nil (b : Books) (task : TaskId) : b.append task [] = b := by
  rw [append, List.append_nil, Function.update_eq_self]

end Books

/-- Newer, or made at the same time with a smaller identifier. -/
def Dag.ListedBefore (d e : Dag) : Prop :=
  e.createdAt.before d.createdAt = true ∨
    d.createdAt = e.createdAt ∧ toString d.id < toString e.id

/-- Every dag once, the newest first. -/
structure Books.Lists (b : Books) (ds : List Dag) : Prop where
  all : ∀ d, d ∈ ds ↔ b.dags d.id = some d
  ordered : ds.Pairwise Dag.ListedBefore

/-- A dag with a task whose status is changed. -/
def Dag.restated (d : Dag) (task : TaskId) (status : TaskStatus) (now : Timestamp) : Dag :=
  { d.modifyTask task (Store.withStatus status now) with
    version := d.version + 1, updatedAt := now }

/-! ### Calls -/

namespace Store

inductive Call where
  | save (d : Dag)
  | compareAndSwap (d : Dag) (expected : Nat)
  | saveTaskStatus (dag : DagId) (task : TaskId) (status : TaskStatus) (entries : List LogEntry)
      (now : Timestamp)
  | appendLogs (task : TaskId) (entries : List LogEntry)
  | appendLog (task : TaskId) (entry : LogEntry)
  | load (id : DagId)
  | list
  | taskLogs (task : TaskId) (tail : Option Nat)

inductive Answer where
  | done
  | swapped (won : Bool)
  | found (d? : Option Dag)
  | listed (ds : List Dag)
  | lines (entries : List LogEntry)

/-- The store carries a call out. A call that fails leaves it as it was. -/
def perform (s : Store) : Call → Store × Stored Answer
  | .save d => (s.save d, .ok .done)
  | .compareAndSwap d expected =>
    match s.compareAndSwap d expected with
    | .ok (s', won) => (s', .ok (.swapped won))
    | .error f => (s, .error f)
  | .saveTaskStatus dag task status entries now =>
    match s.saveTaskStatus dag task status entries now with
    | .ok s' => (s', .ok .done)
    | .error f => (s, .error f)
  | .appendLogs task entries => (s.appendLogs task entries, .ok .done)
  | .appendLog task entry => (s.appendLogs task [entry], .ok .done)
  | .load id => (s, (s.load? id).map .found)
  | .list => (s, s.list.map .listed)
  | .taskLogs task tail => (s, (s.taskLogs task tail).map .lines)

/-- The answers to calls that come one after another. -/
def transcript (s : Store) : List Call → List (Stored Answer)
  | [] => []
  | c :: cs => (s.perform c).2 :: (s.perform c).1.transcript cs

end Store

namespace Books

/-- What a call makes of the maps. -/
def after (b : Books) : Store.Call → Books
  | .save d => b.enter d
  | .compareAndSwap d expected =>
    if (b.dags d.id).map (·.version) = some expected then b.enter d else b
  | .saveTaskStatus dag task status entries now =>
    match b.dags dag with
    | none => b
    | some d =>
      if (d.task? task).isSome then (b.enter (d.restated task status now)).append task entries
      else b
  | .appendLogs task entries => b.append task entries
  | .appendLog task entry => b.append task [entry]
  | .load _ | .list | .taskLogs .. => b

/-- What a call answers. -/
def Answers (b : Books) : Store.Call → Stored Store.Answer → Prop
  | .save _, r | .appendLogs .., r | .appendLog .., r => r = .ok .done
  | .compareAndSwap d expected, r =>
    r = .ok (.swapped (decide ((b.dags d.id).map (·.version) = some expected)))
  | .saveTaskStatus dag task .., r =>
    match b.dags dag with
    | none => r = .error (.of s!"dag {dag} not found")
    | some d =>
      if (d.task? task).isSome then r = .ok .done
      else r = .error (.of s!"task {task} not found in dag {dag}")
  | .load id, r => r = .ok (.found (b.dags id))
  | .list, r => ∃ ds, r = .ok (.listed ds) ∧ b.Lists ds
  | .taskLogs task none, r => r = .ok (.lines (b.logs task))
  | .taskLogs task (some n), r =>
    r = .ok (.lines ((b.logs task).drop ((b.logs task).length - n)))

/-- Every record that a call writes survives. -/
def Admits (b : Books) : Store.Call → Prop
  | .save d | .compareAndSwap d _ => Document.Survives d
  | .saveTaskStatus dag task status entries now =>
    (∀ d, b.dags dag = some d → (d.task? task).isSome →
      Document.Survives (d.restated task status now)) ∧ ∀ e ∈ entries, Document.Survives e
  | .appendLogs _ entries => ∀ e ∈ entries, Document.Survives e
  | .appendLog _ entry => Document.Survives entry
  | .load _ | .list | .taskLogs .. => True

/-- Every record that calls write, one after another, survives. -/
def AdmitsAll (b : Books) : List Store.Call → Prop
  | [] => True
  | c :: cs => b.Admits c ∧ (b.after c).AdmitsAll cs

/-- The answers that the maps give to calls that come one after another. -/
def Explains (b : Books) : List Store.Call → List (Stored Store.Answer) → Prop
  | [], [] => True
  | c :: cs, r :: rs => b.Answers c r ∧ (b.after c).Explains cs rs
  | _, _ => False

end Books

/-! ### Newest first -/

namespace Dag.ListedBefore

theorem trans {c d e : Dag} (hcd : c.ListedBefore d) (hde : d.ListedBefore e) :
    c.ListedBefore e := by
  unfold ListedBefore at *
  rcases hcd with hcd | ⟨hcd, hid⟩
  · rcases hde with hde | ⟨hde, -⟩
    · left
      rw [Timestamp.before_iff] at *
      omega
    · exact .inl (hde ▸ hcd)
  · rcases hde with hde | ⟨hde, hid'⟩
    · exact .inl (hcd ▸ hde)
    · exact .inr ⟨hcd.trans hde, String.lt_trans hid hid'⟩

theorem asymm {d e : Dag} (hde : d.ListedBefore e) : ¬ e.ListedBefore d := by
  unfold ListedBefore at *
  rintro (hed | ⟨hed, hid⟩)
  · rcases hde with hde | ⟨hde, -⟩
    · rw [Timestamp.before_iff] at *
      omega
    · exact Timestamp.ne_of_before hed hde
  · rcases hde with hde | ⟨-, hid'⟩
    · exact Timestamp.ne_of_before hde hed
    · exact String.lt_asymm hid hid'

/-- A dag that is not older than another stands before it if its identifier is smaller. -/
theorem of_not_before {d e : Dag} (h : d.createdAt.before e.createdAt = false)
    (hid : toString d.id < toString e.id) : d.ListedBefore e := by
  have hed := Timestamp.notAfter_of_not_before h
  cases hbefore : e.createdAt.before d.createdAt with
  | true => exact .inl hbefore
  | false =>
    exact .inr ⟨Timestamp.eq_of_notAfter (Timestamp.notAfter_of_not_before hbefore) hed, hid⟩

end Dag.ListedBefore

/-- There is only one list of all dags. -/
theorem Books.Lists.nodup {b : Books} {ds : List Dag} (h : b.Lists ds) : ds.Nodup := by
  refine h.ordered.imp fun {d e} hlt heq => ?_
  subst heq
  exact hlt.asymm hlt

theorem Books.Lists.unique {b : Books} {ds es : List Dag} (hds : b.Lists ds) (hes : b.Lists es) :
    ds = es := by
  have hperm : ds.Perm es :=
    (List.perm_ext_iff_of_nodup hds.nodup hes.nodup).2 fun d => by rw [hds.all, hes.all]
  exact hperm.eq_of_pairwise (fun _ _ _ _ hde hed => absurd hed hde.asymm) hds.ordered hes.ordered

namespace Store

theorem mem_insertNewest {d e : Dag} {ds : List Dag} :
    e ∈ insertNewest d ds ↔ e = d ∨ e ∈ ds := by
  induction ds with
  | nil => simp [insertNewest]
  | cons f ds ih =>
    rw [insertNewest]
    split
    · exact List.mem_cons
    · rw [List.mem_cons, ih, List.mem_cons, or_left_comm]

/-- A dag goes behind those of the same time when its identifier is the greatest. -/
theorem pairwise_insertNewest {d : Dag} {ds : List Dag} (h : ds.Pairwise Dag.ListedBefore)
    (hid : ∀ e ∈ ds, toString e.id < toString d.id) :
    (insertNewest d ds).Pairwise Dag.ListedBefore := by
  induction ds with
  | nil => exact List.pairwise_singleton _ _
  | cons f ds ih =>
    obtain ⟨hf, hds⟩ := List.pairwise_cons.1 h
    obtain ⟨hidf, hid⟩ := List.forall_mem_cons.1 hid
    rw [insertNewest]
    split
    · rename_i hnewer
      refine List.pairwise_cons.2 ⟨fun e he => ?_, h⟩
      have hdf : d.ListedBefore f := .inl hnewer
      rcases List.mem_cons.1 he with rfl | he
      · exact hdf
      · exact hdf.trans (hf e he)
    · rename_i hnewer
      refine List.pairwise_cons.2 ⟨fun e he => ?_, ih hds hid⟩
      rcases mem_insertNewest.1 he with rfl | he
      · exact .of_not_before (Bool.not_eq_true _ ▸ hnewer) hidf
      · exact hf e he

/-- Dags that come by identifier are sorted by age. -/
theorem foldl_insertNewest {ds : List Dag}
    (h : ds.Pairwise fun d e => toString d.id < toString e.id) :
    (∀ d, d ∈ ds.foldl (fun acc d => insertNewest d acc) [] ↔ d ∈ ds) ∧
      (ds.foldl (fun acc d => insertNewest d acc) []).Pairwise Dag.ListedBefore := by
  induction ds using List.reverseRecOn with
  | nil => exact ⟨fun _ => Iff.rfl, .nil⟩
  | append_singleton ds d ih =>
    obtain ⟨hds, -, hid⟩ := List.pairwise_append.1 h
    obtain ⟨hmem, hordered⟩ := ih hds
    rw [List.foldl_append, List.foldl_cons, List.foldl_nil]
    constructor
    · intro e
      rw [mem_insertNewest, hmem, List.mem_append, List.mem_singleton, or_comm]
    · apply pairwise_insertNewest hordered
      exact fun e he => hid e ((hmem e).1 he) d (List.mem_singleton.2 rfl)

/-! ### Tables that hold the maps -/

/-- The tables hold the maps: a dag stands under its own identifier, the lines of a task are
numbered from zero, and every record survives. -/
structure Holds (s : Store) (b : Books) : Prop where
  dags : ∀ row,
    row ∈ s.dags.rows ↔ ∃ d, b.dags d.id = some d ∧ row = (toString d.id, Document.text d)
  dag : ∀ id d, b.dags id = some d → d.id = id ∧ Document.Survives d
  logs : ∀ task, rowsOf task s.logs = numbered task 0 ((b.logs task).map Document.text)
  entry : ∀ task, ∀ e ∈ b.logs task, Document.Survives e

theorem holds_empty : empty.Holds .empty where
  dags row := by simp [empty, Table.empty, Books.empty]
  dag _ _ := nofun
  logs _ := rfl
  entry _ _ := nofun

namespace Holds

variable {s : Store} {b : Books} (h : s.Holds b)
include h

theorem load?_eq (id : DagId) : s.load? id = .ok (b.dags id) := by
  have hrow : ∀ t, s.text? id = some t ↔ ∃ d, b.dags id = some d ∧ t = Document.text d := by
    intro t
    rw [text?, Table.get?_eq_some_iff, h.dags]
    constructor
    · rintro ⟨d, hd, hrow⟩
      obtain ⟨hid, ht⟩ := Prod.mk.inj hrow
      exact ⟨d, DagId.text_injective hid ▸ hd, ht⟩
    · rintro ⟨d, hd, ht⟩
      obtain ⟨hid, -⟩ := h.dag id d hd
      exact ⟨d, hid ▸ hd, by rw [hid, ht]⟩
  rw [load?]
  cases hd : b.dags id with
  | none =>
    have hnone : s.text? id = none := by
      refine Option.eq_none_iff_forall_ne_some.2 fun t ht => ?_
      obtain ⟨d, hd', -⟩ := (hrow t).1 ht
      rw [hd] at hd'
      cases hd'
    rw [hnone]
  | some d =>
    rw [(hrow _).2 ⟨d, hd, rfl⟩]
    simp only [decodeDag_text (h.dag id d hd).2]
    rfl

theorem compareAndSwap_eq (d : Dag) (expected : Nat) :
    s.compareAndSwap d expected =
      .ok (if (b.dags d.id).map (·.version) = some expected then (s.save d, true)
        else (s, false)) := by
  rw [compareAndSwap, h.load?_eq]
  cases b.dags d.id with
  | none => rfl
  | some stored =>
    simp only [Option.map_some, Option.some_inj]
    rfl

theorem saveTaskStatus_eq (dag : DagId) (task : TaskId) (status : TaskStatus)
    (entries : List LogEntry) (now : Timestamp) :
    s.saveTaskStatus dag task status entries now =
      match b.dags dag with
      | none => .error (.of s!"dag {dag} not found")
      | some d =>
        if (d.task? task).isSome then
          .ok ((s.save (d.restated task status now)).appendLogs task entries)
        else .error (.of s!"task {task} not found in dag {dag}") := by
  rw [saveTaskStatus, h.load?_eq]
  cases hstored : b.dags dag with
  | none => rfl
  | some d =>
    obtain ⟨rfl, -⟩ := h.dag dag d hstored
    cases htask : d.task? task with
    | none =>
      simp only [bind, Except.bind, htask]
      rfl
    | some t =>
      simp only [bind, Except.bind, htask]
      rfl

theorem list_eq : ∃ ds, s.list = .ok ds ∧ b.Lists ds := by
  -- The dags in the order of the table, which is that of their identifiers.
  obtain ⟨ds, hrows, hds⟩ : ∃ ds : List Dag,
      s.dags.rows = ds.map (fun d => (toString d.id, Document.text d)) ∧
        ∀ d ∈ ds, b.dags d.id = some d := by
    have hall := fun row => (h.dags row).1
    generalize s.dags.rows = rows at hall ⊢
    induction rows with
    | nil => exact ⟨[], rfl, nofun⟩
    | cons row rows ih =>
      obtain ⟨d, hd, rfl⟩ := hall row List.mem_cons_self
      obtain ⟨ds, rfl, hds⟩ := ih fun row hrow => hall row (List.mem_cons_of_mem _ hrow)
      exact ⟨d :: ds, rfl, List.forall_mem_cons.2 ⟨hd, hds⟩⟩
  have hread : s.dags.rows.mapM (fun row => decodeDag row.2) = .ok ds := by
    rw [hrows]
    apply mapM_eq_ok_iff.2
    rw [List.forall₂_map_left_iff]
    exact List.forall₂_same.2 fun d hd => decodeDag_text (h.dag _ d (hds d hd)).2
  have hids : ds.Pairwise fun d e => toString d.id < toString e.id := by
    have hsorted := s.dags.sorted
    rw [hrows, List.pairwise_map] at hsorted
    exact hsorted
  obtain ⟨hmem, hordered⟩ := foldl_insertNewest hids
  refine ⟨_, by rw [list, hread]; rfl, fun d => ?_, hordered⟩
  rw [hmem]
  constructor
  · exact hds d
  · intro hd
    have hrow := (h.dags _).2 ⟨d, hd, rfl⟩
    rw [hrows] at hrow
    obtain ⟨e, he, hsame⟩ := List.mem_map.1 hrow
    have hid := DagId.text_injective (Prod.mk.inj hsame).1
    have heq := hds e he
    rw [hid, hd] at heq
    rwa [Option.some.inj heq]

theorem enter {d : Dag} (hd : Document.Survives d) : (s.save d).Holds (b.enter d) where
  dags row := by
    have hrow : row ∈ (s.save d).dags.rows ↔ _ := Table.mem_insert
    rw [hrow, h.dags]
    simp only [Books.enter_dags_iff]
    constructor
    · rintro (rfl | ⟨⟨e, he, rfl⟩, hne⟩)
      · exact ⟨d, .inl ⟨rfl, rfl⟩, rfl⟩
      · exact ⟨e, .inr ⟨fun heq => hne (congrArg toString heq), he⟩, rfl⟩
    · rintro ⟨e, ⟨-, rfl⟩ | ⟨hne, he⟩, rfl⟩
      · exact .inl rfl
      · exact .inr ⟨⟨e, he, rfl⟩, fun heq => hne (DagId.text_injective heq)⟩
  dag id e he := by
    rcases Books.enter_dags_iff.1 he with ⟨rfl, rfl⟩ | ⟨-, he⟩
    · exact ⟨rfl, hd⟩
    · exact h.dag id e he
  logs := h.logs
  entry := h.entry

theorem append (task : TaskId) {entries : List LogEntry}
    (hentries : ∀ e ∈ entries, Document.Survives e) :
    (s.appendLogs task entries).Holds (b.append task entries) := by
  rw [appendLogs]
  split
  · rename_i hempty
    rw [List.isEmpty_iff.1 hempty, b.append_nil]
    exact h
  · refine ⟨h.dags, h.dag, fun other => ?_, fun other e he => ?_⟩
    · rw [Books.append_logs]
      split
      · rename_i hother
        rw [hother, List.map_append]
        exact rowsOf_pushLines (h.logs task) _
      · rename_i hother
        exact (rowsOf_insertLines_of_ne hother ..).trans (h.logs other)
    · rw [Books.append_logs] at he
      split at he
      · exact (List.mem_append.1 he).elim (h.entry other e) (hentries e)
      · exact h.entry other e he

/-- What one call answers, and what it leaves. -/
theorem perform (c : Call) (hc : b.Admits c) :
    b.Answers c (s.perform c).2 ∧ (s.perform c).1.Holds (b.after c) := by
  cases c with
  | save d => exact ⟨rfl, h.enter hc⟩
  | compareAndSwap d expected =>
    simp only [Store.perform, h.compareAndSwap_eq, Books.Answers, Books.after]
    by_cases hversion : (b.dags d.id).map (·.version) = some expected
    · simp only [hversion, if_true, decide_true]
      exact ⟨trivial, h.enter hc⟩
    · simp only [hversion, if_false, decide_false]
      exact ⟨trivial, h⟩
  | saveTaskStatus dag task status entries now =>
    obtain ⟨hmade, hentries⟩ := hc
    simp only [Store.perform, h.saveTaskStatus_eq, Books.Answers, Books.after]
    cases hstored : b.dags dag with
    | none => exact ⟨rfl, h⟩
    | some d =>
      by_cases htask : (d.task? task).isSome
      · simp only [htask, if_true]
        exact ⟨trivial, (h.enter (hmade d hstored htask)).append task hentries⟩
      · simp only [htask]
        exact ⟨rfl, h⟩
  | appendLogs task entries => exact ⟨rfl, h.append task hc⟩
  | appendLog task entry =>
    exact ⟨rfl, h.append task fun e he => List.mem_singleton.1 he ▸ hc⟩
  | load id =>
    refine ⟨?_, h⟩
    change (s.load? id).map Answer.found = _
    rw [h.load?_eq]
    rfl
  | list =>
    obtain ⟨ds, hlist, hds⟩ := h.list_eq
    refine ⟨⟨ds, ?_, hds⟩, h⟩
    change s.list.map Answer.listed = _
    rw [hlist]
    rfl
  | taskLogs task tail =>
    refine ⟨?_, h⟩
    have hread := taskLogs_eq (h.logs task) (h.entry task) tail
    cases tail with
    | none => exact congrArg (Except.map Answer.lines) hread
    | some n => exact congrArg (Except.map Answer.lines) hread

end Holds

end Store

/-! ### Calls one after another -/

/-- The maps leave no choice of answers. -/
theorem Books.Answers.unique {b : Books} {c : Store.Call} {r r' : Stored Store.Answer}
    (h : b.Answers c r) (h' : b.Answers c r') : r = r' := by
  cases c with
  | list =>
    obtain ⟨ds, rfl, hds⟩ := h
    obtain ⟨es, rfl, hes⟩ := h'
    rw [hds.unique hes]
  | saveTaskStatus dag task =>
    simp only [Answers] at h h'
    cases hstored : b.dags dag with
    | none =>
      rw [hstored] at h h'
      exact h.trans h'.symm
    | some d =>
      simp only [hstored] at h h'
      by_cases htask : (d.task? task).isSome
      · rw [if_pos htask] at h h'
        exact h.trans h'.symm
      · rw [if_neg htask] at h h'
        exact h.trans h'.symm
  | taskLogs task tail =>
    cases tail with
    | none => exact h.trans h'.symm
    | some n => exact h.trans h'.symm
  | save | compareAndSwap | appendLogs | appendLog | load => exact h.trans h'.symm

theorem Store.Holds.explains_iff {s : Store} {b : Books} (h : s.Holds b) {calls : List Store.Call}
    (hcalls : b.AdmitsAll calls) {replies : List (Stored Store.Answer)} :
    b.Explains calls replies ↔ replies = s.transcript calls := by
  induction calls generalizing s b replies with
  | nil => cases replies <;> simp [Books.Explains, Store.transcript]
  | cons c calls ih =>
    obtain ⟨hc, hcalls⟩ := hcalls
    obtain ⟨hanswer, hafter⟩ := h.perform c hc
    cases replies with
    | nil => simp [Books.Explains, Store.transcript]
    | cons r replies =>
      rw [Books.Explains, Store.transcript, List.cons.injEq, ih hafter hcalls]
      exact and_congr_left fun _ => ⟨fun hr => hr.unique hanswer, fun hr => hr ▸ hanswer⟩

/-- A store refines two plain maps. The answers to any calls that write only records that survive
their texts are the ones that the maps give, and there are no others. -/
theorem Store.explains_iff_transcript {calls : List Store.Call}
    (hcalls : Books.empty.AdmitsAll calls) (replies : List (Stored Store.Answer)) :
    Books.empty.Explains calls replies ↔ replies = Store.empty.transcript calls :=
  Store.holds_empty.explains_iff hcalls

/-! ### Records that survive -/

theorem Dag.mem_modifyFirst {α : Type} {p : α → Bool} {f : α → α} {l : List α} {a : α}
    (h : a ∈ modifyFirst p f l) : a ∈ l ∨ ∃ b ∈ l, a = f b := by
  induction l with
  | nil => exact .inl h
  | cons b l ih =>
    rw [modifyFirst] at h
    split at h
    · rcases List.mem_cons.1 h with rfl | h
      · exact .inr ⟨b, List.mem_cons_self, rfl⟩
      · exact .inl (List.mem_cons_of_mem b h)
    · rcases List.mem_cons.1 h with rfl | h
      · exact .inl List.mem_cons_self
      · rcases ih h with h | ⟨c, hc, rfl⟩
        · exact .inl (List.mem_cons_of_mem b h)
        · exact .inr ⟨c, List.mem_cons_of_mem b hc, rfl⟩

/-- What a change keeps of every task holds of all tasks when one is changed. -/
theorem Dag.forall_modifyTask {P : Task → Prop} {f : Task → Task} (hf : ∀ t, P t → P (f t))
    {d : Dag} (h : ∀ n ∈ d.nodes, ∀ t ∈ n.tasks, P t) (id : TaskId) :
    ∀ n ∈ (d.modifyTask id f).nodes, ∀ t ∈ n.tasks, P t := by
  intro n hn t ht
  rcases mem_modifyFirst hn with hn | ⟨m, hm, rfl⟩
  · exact h n hn t ht
  · rcases mem_modifyFirst ht with ht | ⟨u, hu, rfl⟩
    · exact h m hm t ht
    · exact hf u (h m hm u hu)

theorem Dag.Valid.restated {d : Dag} (h : d.Valid) (hversion : d.version + 1 < 2 ^ 64)
    {now : Timestamp} (hnow : now.Valid) (task : TaskId) (status : TaskStatus) :
    (d.restated task status now).Valid := by
  have htask : ∀ t : Task, t.Valid → (Store.withStatus status now t).Valid := by
    intro t ht
    refine ⟨ht.context, ht.startedAt, fun time htime => ?_⟩
    simp only [Store.withStatus] at htime
    split at htime
    · rw [← Option.some.inj htime]
      exact hnow
    · cases htime
  refine ⟨fun n hn => ⟨?_⟩, h.stage, h.maxStage, hversion, h.createdAt, hnow⟩
  exact Dag.forall_modifyTask htask (fun n hn => (h.nodes n hn).tasks) task n hn

/-- The status of a task is not nested. -/
theorem Dag.depth_restated_le {d : Dag} (hdepth : (toJson d).depth ≤ Json.depthLimit)
    (task : TaskId) (status : TaskStatus) (now : Timestamp) :
    (toJson (d.restated task status now)).depth ≤ Json.depthLimit := by
  have hwithin (t : Task) (ht : t.context.Within 120) :
      (Store.withStatus status now t).context.Within 120 := ht
  apply (Dag.depth_le_iff (k := 120)).2
  exact Dag.forall_modifyTask hwithin ((Dag.depth_le_iff (k := 120)).1 hdepth) task

/-- A dag that can be written can be written with another status of a task as well. -/
theorem Dag.Valid.restated_survives {d : Dag} (h : d.Valid) (hversion : d.version + 1 < 2 ^ 64)
    (hdepth : (toJson d).depth ≤ Json.depthLimit) {now : Timestamp} (hnow : now.Valid)
    (task : TaskId) (status : TaskStatus) : Document.Survives (d.restated task status now) :=
  (h.restated hversion hnow task status).faithful.survives
    (Dag.depth_restated_le hdepth task status now)

namespace Sample

def storedDag : Dag := { finishedDag with version := 7, status := .failed }

theorem survives_storedDag : Document.Survives storedDag := by
  have hvalid : storedDag.Valid := { valid_finishedDag with version := by decide }
  exact hvalid.faithful.survives (by decide)

theorem survives_line : Document.Survives line :=
  LogEntry.Valid.faithful ⟨valid_leapSecond⟩ |>.survives (by decide)

/-- The status of a task is changed, so that a swap with the old version fails. -/
def storeCalls : List Store.Call :=
  [.save storedDag, .appendLog ⟨⟨3⟩⟩ line, .appendLogs ⟨⟨1⟩⟩ [line, line],
   .saveTaskStatus storedDag.id ⟨⟨1⟩⟩ .running [line] moment, .compareAndSwap storedDag 7, .list,
   .load storedDag.id, .taskLogs ⟨⟨1⟩⟩ (some 2), .taskLogs ⟨⟨3⟩⟩ none]

end Sample

theorem Store.explains_iff_transcript_swapped :
    Books.empty.AdmitsAll Sample.storeCalls ∧
      Books.empty.Explains Sample.storeCalls (Store.empty.transcript Sample.storeCalls) := by
  have hdag := Sample.survives_storedDag
  have hline := Sample.survives_line
  have hlines : ∀ e ∈ [Sample.line, Sample.line], Document.Survives e := by simp [hline]
  have hcalls : Books.empty.AdmitsAll Sample.storeCalls := by
    refine ⟨hdag, hline, hlines, ⟨fun d hd _ => ?_, by simp [hline]⟩, hdag, trivial, trivial,
      trivial, trivial, trivial⟩
    have hsame : d = Sample.storedDag := by
      simpa [Books.after, Books.append, Books.enter, eq_comm] using hd
    rw [hsame]
    have hvalid : Sample.storedDag.Valid := { Sample.valid_finishedDag with version := by decide }
    exact hvalid.restated_survives (by decide) (by decide) Sample.valid_moment _ _
  exact ⟨hcalls, (Store.explains_iff_transcript hcalls _).2 rfl⟩

end Stagewise
