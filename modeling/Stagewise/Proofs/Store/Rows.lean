import Mathlib.Data.List.Induction
import Stagewise.Proofs.Document.Dag
import Stagewise.Proofs.Results
import Stagewise.Proofs.Table
import Stagewise.Store.Basic
/-!
# The rows of a log

All logs share one table. The rows of one task are numbered from zero without a gap, whatever stands
between the rows of other tasks: a line goes behind the row with the highest number, and rows are
read forwards or, for the last few, backwards.
-/

namespace Stagewise

theorem TaskId.text_injective {id id' : TaskId} (h : toString id = toString id') : id = id' := by
  have := Uuid.text_injective h
  cases id
  cases id'
  exact congrArg TaskId.mk this

theorem DagId.text_injective {id id' : DagId} (h : toString id = toString id') : id = id' := by
  have := Uuid.text_injective h
  cases id
  cases id'
  exact congrArg DagId.mk this

namespace Store

/-! ### Numbered rows -/

/-- The rows of some lines of a task, numbered from `n` on. -/
def numbered (id : TaskId) : Nat → List String → List (LineKey × String)
  | _, [] => []
  | n, line :: lines => (⟨toString id, n⟩, line) :: numbered id (n + 1) lines

theorem numbered_append (id : TaskId) (n : Nat) (xs ys : List String) :
    numbered id n (xs ++ ys) = numbered id n xs ++ numbered id (n + xs.length) ys := by
  induction xs generalizing n with
  | nil => rfl
  | cons x xs ih =>
    rw [List.cons_append, numbered, numbered, ih, List.cons_append, List.length_cons,
      Nat.add_assoc, Nat.add_comm 1]

theorem number_lt_of_mem {id : TaskId} {n : Nat} {lines : List String} {row : LineKey × String}
    (h : row ∈ numbered id n lines) : row.1.number < n + lines.length := by
  induction lines generalizing n with
  | nil => exact absurd h List.not_mem_nil
  | cons line lines ih =>
    rw [List.length_cons]
    rcases List.mem_cons.1 h with rfl | h
    · exact Nat.lt_add_of_pos_right (Nat.succ_pos _)
    · have := ih h
      omega

theorem map_snd_numbered (id : TaskId) (n : Nat) (lines : List String) :
    (numbered id n lines).map Prod.snd = lines := by
  induction lines generalizing n with
  | nil => rfl
  | cons line lines ih => rw [numbered, List.map_cons, ih]

theorem nextNumber_eq {id : TaskId} {logs : Table LineKey String} {lines : List String}
    (h : rowsOf id logs = numbered id 0 lines) : nextNumber id logs = lines.length := by
  rw [nextNumber, h]
  cases lines using List.reverseRecOn with
  | nil => rfl
  | append_singleton lines line =>
    rw [numbered_append, numbered, numbered, List.getLast?_concat]
    simp

/-! ### Putting lines in -/

theorem rowsOf_insertLines_of_ne {id other : TaskId} (h : other ≠ id) (n : Nat)
    (lines : List String) (logs : Table LineKey String) :
    rowsOf other (insertLines id n lines logs) = rowsOf other logs := by
  have hne : (toString id == toString other) = false :=
    beq_false_of_ne fun heq => h (TaskId.text_injective heq.symm)
  induction lines generalizing n logs with
  | nil => rfl
  | cons line lines ih =>
    rw [insertLines, ih, rowsOf, rowsOf]
    exact Table.filter_insertRow_of_false (fun k : LineKey => k.task == toString other)
      (LineKey.mk (toString id) n) hne line logs.rows

/-- Lines that are put in behind all others of their task follow them. -/
theorem rowsOf_insertLines {id : TaskId} {n : Nat} {logs : Table LineKey String}
    (hlast : ∀ row ∈ rowsOf id logs, row.1.number < n) (lines : List String) :
    rowsOf id (insertLines id n lines logs) = rowsOf id logs ++ numbered id n lines := by
  induction lines generalizing n logs with
  | nil => exact (List.append_nil _).symm
  | cons line lines ih =>
    have hrows : rowsOf id (logs.insert ⟨toString id, n⟩ line) =
        rowsOf id logs ++ [(⟨toString id, n⟩, line)] := by
      refine logs.filter_insert (fun k => k.task == toString id) ⟨toString id, n⟩
        (beq_self_eq_true _) (fun row hrow htask => ?_) line
      have htask := eq_of_beq htask
      have hmem : row ∈ rowsOf id logs := List.mem_filter.2 ⟨hrow, beq_iff_eq.2 htask⟩
      exact .inr ⟨htask, hlast row hmem⟩
    rw [insertLines, ih, hrows, numbered, List.append_assoc, List.singleton_append]
    intro row hrow
    rw [hrows] at hrow
    rcases List.mem_append.1 hrow with hrow | hrow
    · exact Nat.lt_succ_of_lt (hlast row hrow)
    · rw [List.mem_singleton.1 hrow]
      exact Nat.lt_succ_self n

theorem rowsOf_pushLines {id : TaskId} {logs : Table LineKey String} {lines : List String}
    (h : rowsOf id logs = numbered id 0 lines) (more : List String) :
    rowsOf id (pushLines id more logs) = numbered id 0 (lines ++ more) := by
  rw [pushLines, nextNumber_eq h, rowsOf_insertLines, h, numbered_append, Nat.zero_add]
  intro row hrow
  rw [h] at hrow
  simpa using number_lt_of_mem hrow

/-! ### Reading lines -/

theorem decodeLine_text {e : LogEntry} (h : Document.Survives e) :
    decodeLine (Document.text e) = .ok e := by
  have hread : Document.readText? (Document.text e) = some e := h
  simp only [decodeLine, hread]

theorem decodeDag_text {d : Dag} (h : Document.Survives d) :
    decodeDag (Document.text d) = .ok d := by
  have hread : Document.readText? (Document.text d) = some d := h
  simp only [decodeDag, hread]

/-- What is read of rows that hold entries are the entries, forwards and, for the last of them,
backwards. -/
theorem taskLogs_eq {s : Store} {id : TaskId} {entries : List LogEntry}
    (h : rowsOf id s.logs = numbered id 0 (entries.map Document.text))
    (hentries : ∀ e ∈ entries, Document.Survives e) (tail : Option Nat) :
    s.taskLogs id tail = .ok (match tail with
      | some n => entries.drop (entries.length - n)
      | none => entries) := by
  have hrows : List.Forall₂ (fun (row : LineKey × String) e => decodeLine row.2 = .ok e)
      (rowsOf id s.logs) entries := by
    have htexts : List.Forall₂ (fun t e => decodeLine t = .ok e) (entries.map Document.text)
        entries := by
      rw [List.forall₂_map_left_iff]
      exact List.forall₂_same.2 fun e he => decodeLine_text (hentries e he)
    rw [h]
    rw [← map_snd_numbered id 0 (entries.map Document.text), List.forall₂_map_left_iff] at htexts
    exact htexts
  cases tail with
  | none => exact mapM_eq_ok_iff.2 hrows
  | some n =>
    have hlast : ((rowsOf id s.logs).reverse.take n).mapM (fun row => decodeLine row.2) =
        .ok (entries.reverse.take n) :=
      mapM_eq_ok_iff.2 (List.forall₂_take n (List.forall₂_reverse_iff.2 hrows))
    simp only [taskLogs, hlast]
    change Except.ok (entries.reverse.take n).reverse = _
    rw [List.take_reverse, List.reverse_reverse]

end Store

end Stagewise
