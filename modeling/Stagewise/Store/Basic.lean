import Stagewise.Dag.Document
import Stagewise.Error
import Stagewise.Table
/-!
# The store

Dags and task logs as they are kept, in two tables: a dag as the text of its document under the text
of its identifier, a log line as the text of its document under the identifier of its task and its
number. A record whose text cannot be read back, for instance because it is nested too deeply, is an
error wherever it is needed.
-/

namespace Stagewise

/-- The key of a log line. -/
structure LineKey where
  task : String
  number : Nat
  deriving DecidableEq, Repr, Inhabited

/-- The lines of a task stand together, in the order of their numbers. -/
instance : LT LineKey := ⟨fun a b => a.task < b.task ∨ a.task = b.task ∧ a.number < b.number⟩

instance : DecidableLT LineKey := fun a b =>
  inferInstanceAs (Decidable (a.task < b.task ∨ a.task = b.task ∧ a.number < b.number))

instance : Ordered LineKey where
  irrefl a h := h.elim (String.lt_irrefl _) fun h => Nat.lt_irrefl _ h.2
  trans := by
    rintro a b c (h | ⟨h, hn⟩) (h' | ⟨h', hn'⟩)
    · exact .inl (String.lt_trans h h')
    · exact .inl (h' ▸ h)
    · exact .inl (h ▸ h')
    · exact .inr ⟨h.trans h', Nat.lt_trans hn hn'⟩
  trichotomous := by
    rintro ⟨task, n⟩ ⟨task', m⟩
    rcases Ordered.trichotomous task task' with h | rfl | h
    · exact .inl (.inl h)
    · rcases Nat.lt_trichotomy n m with h | rfl | h
      · exact .inl (.inr ⟨rfl, h⟩)
      · exact .inr (.inl rfl)
      · exact .inr (.inr (.inr ⟨rfl, h⟩))
    · exact .inr (.inr (.inl h))

/-- What is stored: the text of every dag, and the texts of the log lines of every task. -/
structure Store where
  dags : Table String String
  logs : Table LineKey String
  deriving Repr, Inhabited

abbrev Stored (α : Type) := Except Failure α

namespace Store

def empty : Store := ⟨.empty, .empty⟩

def text? (s : Store) (id : DagId) : Option String := s.dags.get? (toString id)

def decodeDag (text : String) : Stored Dag :=
  match (Document.readText? text : Option Dag) with
  | some d => .ok d
  | none => .error (.of "Failed to deserialize dag")

def decodeLine (text : String) : Stored LogEntry :=
  match (Document.readText? text : Option LogEntry) with
  | some e => .ok e
  | none => .error (.of "Failed to deserialize log line")

/-- Puts the record of a dag under an identifier. -/
def put (s : Store) (id : DagId) (d : Dag) : Store :=
  { s with dags := s.dags.insert (toString id) (Document.text d) }

/-- Stores a dag, in the stead of an older record of it. -/
def save (s : Store) (d : Dag) : Store := s.put d.id d

def load? (s : Store) (id : DagId) : Stored (Option Dag) :=
  match s.text? id with
  | none => .ok none
  | some t => (decodeDag t).map some

/-- Stores a dag if the version stored for it is the expected one. -/
def compareAndSwap (s : Store) (d : Dag) (expected : Nat) : Stored (Store × Bool) := do
  match ← s.load? d.id with
  | some stored => return if stored.version = expected then (s.save d, true) else (s, false)
  | none => return (s, false)

/-- Puts the newer before the older; of two made at the same time the one that stood first stays
first. -/
def insertNewest (d : Dag) : List Dag → List Dag
  | [] => [d]
  | e :: rest => if e.createdAt.before d.createdAt then d :: e :: rest else e :: insertNewest d rest

/-- Every dag, the newest first; of two made at the same time the one with the smaller identifier
first. -/
def list (s : Store) : Stored (List Dag) := do
  let ds ← s.dags.rows.mapM fun (_, t) => decodeDag t
  return ds.foldl (fun acc d => insertNewest d acc) []

/-- The rows of a task's log, in the order of their numbers. -/
def rowsOf (id : TaskId) (logs : Table LineKey String) : List (LineKey × String) :=
  logs.rows.filter fun row => row.1.task == toString id

/-- The number behind the highest that a line of the task has. -/
def nextNumber (id : TaskId) (logs : Table LineKey String) : Nat :=
  match (rowsOf id logs).getLast? with
  | some (k, _) => k.number + 1
  | none => 0

/-- Inserts lines under consecutive numbers. -/
def insertLines (id : TaskId) :
    Nat → List String → Table LineKey String → Table LineKey String
  | _, [], logs => logs
  | number, line :: lines, logs =>
    insertLines id (number + 1) lines (logs.insert ⟨toString id, number⟩ line)

def pushLines (id : TaskId) (lines : List String) (logs : Table LineKey String) :
    Table LineKey String :=
  insertLines id (nextNumber id logs) lines logs

def appendLogs (s : Store) (id : TaskId) (entries : List LogEntry) : Store :=
  if entries.isEmpty then s else { s with logs := pushLines id (entries.map Document.text) s.logs }

/-- The status of a task and the time at which it was over, if it is. -/
def withStatus (status : TaskStatus) (now : Timestamp) (t : Task) : Task :=
  { t with status, finishedAt := if status.isTerminal then some now else none }

/-- Changes the status of one task and adds entries to its log, both or neither. -/
def saveTaskStatus (s : Store) (dag : DagId) (task : TaskId) (status : TaskStatus)
    (entries : List LogEntry) (now : Timestamp) : Stored Store := do
  match ← s.load? dag with
  | none => throw (.of s!"dag {dag} not found")
  | some d =>
    if (d.task? task).isNone then throw (.of s!"task {task} not found in dag {dag}")
    let d :=
      { d.modifyTask task (withStatus status now) with version := d.version + 1, updatedAt := now }
    return (s.put dag d).appendLogs task entries

/-- The log of a task, or its last `tail` lines, which are read backwards. -/
def taskLogs (s : Store) (id : TaskId) (tail : Option Nat) : Stored (List LogEntry) :=
  let rows := rowsOf id s.logs
  match tail with
  | some n => return (← (rows.reverse.take n).mapM fun (_, t) => decodeLine t).reverse
  | none => rows.mapM fun (_, t) => decodeLine t

end Store

end Stagewise
