import Mathlib.Logic.Function.Basic
import Mathlib.Logic.Relation
import Stagewise.Proofs.Course.Basic
/-!
# A dag and those who work on it at the same time

The stored record of one dag, its lock, the register of its drive loops, and any number of processes
that take their steps in any order: drive loops, and callers who submit, command or recover the dag.
A step is as much as a process does between two moments at which another one may come in; whoever
reads the record or writes it holds the lock, but does so in separate steps. The store does its
work; how it may fail is no matter here.
-/

namespace Stagewise

open Relation (ReflTransGen)

/-- Who takes steps: the drive loop of a generation, or a caller. -/
inductive Process where
  | loop (generation : Nat)
  | caller (number : Nat)
  deriving DecidableEq

/-- Where a process stands. -/
inductive Post where
  /-- The loop looks whether its token is cancelled. -/
  | checking
  /-- The loop waits for the lock to take a step. -/
  | entering
  /-- The loop is about to read the record. -/
  | stepping
  /-- The loop has read a record and is about to make a move. -/
  | moving (read : Dag) (move : Move)
  /-- The loop has sent out a stage, or is about to, and has some of the answers. -/
  | waiting (b : Barrier) (replies : List (Option (EngineResult Outcome)))
  /-- The loop has every answer and waits for the lock. -/
  | returning (b : Barrier) (reports : List Report)
  /-- The loop is about to read the record into which the reports go. -/
  | reading (b : Barrier) (reports : List Report)
  /-- The loop has read a record, folded the reports in, and is about to write it. -/
  | folded (read record : Dag)
  /-- The loop has decided to stop and waits for the lock. -/
  | leaving
  /-- The loop looks once more at its token. -/
  | deciding
  /-- The loop looks once more at the record. -/
  | considering
  /-- The loop is about to take itself off the register. -/
  | departing
  /-- The loop has ended. -/
  | gone
  /-- The caller does nothing. -/
  | idle
  /-- A command waits for the lock. -/
  | commanding (operator : Operator)
  /-- A command is about to read the record. -/
  | commanded (operator : Operator)
  /-- A command has read a record and made another of it. -/
  | prepared (operator : Operator) (read record : Dag)
  /-- A command is written, and the loop is still to be started or stopped. -/
  | committed (operator : Operator)
  /-- A cancellation has taken a loop off the register, whose token it has still to cancel. -/
  | revoking (generation : Option Nat)
  /-- A dag is stored, and its submission waits for the lock. -/
  | submitted
  /-- Recovery has found these tasks interrupted and waits for the lock. -/
  | found (left : List Task)
  /-- Recovery has these tasks left to see to. -/
  | restoring (left : List Task)
  /-- A submission or a recovery is about to start a loop. -/
  | starting

/-- A process at this post holds the lock. -/
def Post.inside : Post → Bool
  | .stepping | .moving .. | .reading .. | .folded .. | .deciding | .considering | .departing
  | .commanded _ | .prepared .. | .committed _ | .revoking _ | .restoring _ | .starting => true
  | _ => false

/-- Where a loop stands after a move that left this record. -/
def Post.after (record : Dag) : Option Batch → Post
  | some batch =>
    .waiting ⟨record.direction, record.stage, [], batch.requests record.id record.direction⟩ []
  | none => .checking

/-- The answers to a stage as reports. -/
def Barrier.reports (b : Barrier) (replies : List (Option (EngineResult Outcome))) : List Report :=
  List.zipWith (fun (a, q) r => ⟨q.task.id, a, r⟩) b.sent (replies.filterMap id)

/-- What the processes share: the record and what was written so far, the latest first; which loop
is registered, which were started, and whose token is cancelled; whether the dag has been submitted
or recovered since the process of the system began, and whether that is shut down. -/
structure Common where
  record : Dag
  entry : Option Nat
  next : Nat
  started : List Nat
  cancelled : List Nat
  attended : Bool
  shut : Bool
  written : List (Process × Dag)

namespace Common

/-- Starts a loop unless one is registered. -/
def spawn (c : Common) : Common :=
  match c.entry with
  | some _ => c
  | none => { c with entry := some c.next, next := c.next + 1, started := c.next :: c.started }

/-- Takes a loop off the register, if it is still the one registered. -/
def deregister (c : Common) (generation : Nat) : Common :=
  { c with entry := if c.entry = some generation then none else c.entry }

def cancel (c : Common) (generation : Nat) : Common :=
  { c with cancelled := generation :: c.cancelled }

/-- Takes every loop off the register and cancels its token. -/
def shutdown (c : Common) : Common :=
  { c with entry := none, cancelled := c.entry.toList ++ c.cancelled, shut := true }

def write (c : Common) (author : Process) (record : Dag) (now : Timestamp) : Common :=
  { c with record := record.raised now, written := (author, record.raised now) :: c.written }

/-- What is left when the process of the system stops. -/
def halt (c : Common) : Common :=
  { c with entry := none, next := 0, started := [], cancelled := [], attended := false,
           shut := false }

end Common

/-- What a process does next: where it stands then, and what it leaves in common. -/
inductive Act : Process → Common → Post → Common → Post → Prop where
  -- A drive loop takes a step.
  | goOn {g : Nat} {c : Common} (live : g ∉ c.cancelled) : Act (.loop g) c .checking c .entering
  | giveUp {g : Nat} {c : Common} (cancelled : g ∈ c.cancelled) :
      Act (.loop g) c .checking c .leaving
  | enter {g : Nat} {c : Common} : Act (.loop g) c .entering c .stepping
  | rest {g : Nat} {c : Common} (ended : ¬ c.record.isRunning) :
      Act (.loop g) c .stepping c .leaving
  | choose {g : Nat} {c : Common} {move : Move} (now : Timestamp) (running : c.record.isRunning)
      (step : c.record.step now = .ok move) :
      Act (.loop g) c .stepping c (.moving c.record move)
  | breakOff {g : Nat} {c : Common} {x : Fault} (now : Timestamp) (running : c.record.isRunning)
      (step : c.record.step now = .error x) : Act (.loop g) c .stepping c .gone
  | write {g : Nat} {c : Common} {read record : Dag} {move : Move} (later : Timestamp)
      (write : move.write = some record) (same : c.record.version = read.version) :
      Act (.loop g) c (.moving read move) (c.write (.loop g) record later)
        (.after (record.raised later) move.batch)
  | pass {g : Nat} {c : Common} {read : Dag} {move : Move} (nothing : move.write = none) :
      Act (.loop g) c (.moving read move) c (.after read move.batch)
  | miss {g : Nat} {c : Common} {read record : Dag} {move : Move} (write : move.write = some record)
      (other : c.record.version ≠ read.version) : Act (.loop g) c (.moving read move) c .checking
  -- A drive loop sees a stage through. A reply may be anything.
  | send {g : Nat} {c : Common} {b : Barrier} {replies : List (Option (EngineResult Outcome))}
      {p : Agent × DispatchRequest} {rest : List (Agent × DispatchRequest)}
      (next : b.rest = p :: rest) :
      Act (.loop g) c (.waiting b replies) c
        (.waiting { b with sent := b.sent ++ [p], rest } (replies ++ [none]))
  | reply {g : Nat} {c : Common} {b : Barrier} {replies : List (Option (EngineResult Outcome))}
      {i : Nat} (result : EngineResult Outcome) (due : replies[i]? = some none) :
      Act (.loop g) c (.waiting b replies) c (.waiting b (replies.set i (some result)))
  | collect {g : Nat} {c : Common} {b : Barrier} {replies : List (Option (EngineResult Outcome))}
      (out : b.rest = []) (all : ∀ r ∈ replies, r.isSome) :
      Act (.loop g) c (.waiting b replies) c (.returning b (b.reports replies))
  | interrupt {g : Nat} {c : Common} {b : Barrier}
      {replies : List (Option (EngineResult Outcome))} (cancelled : g ∈ c.cancelled) :
      Act (.loop g) c (.waiting b replies) c .leaving
  | reenter {g : Nat} {c : Common} {b : Barrier} {reports : List Report} :
      Act (.loop g) c (.returning b reports) c (.reading b reports)
  | drop {g : Nat} {c : Common} {b : Barrier} {reports : List Report}
      (changed : ¬ (c.record.isRunning ∧ c.record.stage = b.stage)) :
      Act (.loop g) c (.reading b reports) c .checking
  | fold {g : Nat} {c : Common} {b : Barrier} {reports : List Report} (now : Timestamp)
      (running : c.record.isRunning) (stage : c.record.stage = b.stage) :
      Act (.loop g) c (.reading b reports) c
        (.folded c.record (c.record.settle reports b.action now).dag)
  | settle {g : Nat} {c : Common} {read record : Dag} (later : Timestamp)
      (same : c.record.version = read.version) :
      Act (.loop g) c (.folded read record) (c.write (.loop g) record later) .checking
  | missFold {g : Nat} {c : Common} {read record : Dag}
      (other : c.record.version ≠ read.version) :
      Act (.loop g) c (.folded read record) c .checking
  -- A drive loop stops, unless the dag runs again by the time it has the lock.
  | leave {g : Nat} {c : Common} : Act (.loop g) c .leaving c .deciding
  | confirm {g : Nat} {c : Common} (cancelled : g ∈ c.cancelled) :
      Act (.loop g) c .deciding c .departing
  | consider {g : Nat} {c : Common} (live : g ∉ c.cancelled) :
      Act (.loop g) c .deciding c .considering
  | again {g : Nat} {c : Common} (running : c.record.isRunning) :
      Act (.loop g) c .considering c .checking
  | quit {g : Nat} {c : Common} (ended : ¬ c.record.isRunning) :
      Act (.loop g) c .considering c .departing
  | depart {g : Nat} {c : Common} : Act (.loop g) c .departing (c.deregister g) .gone
  -- A caller gives a command.
  | call {n : Nat} {c : Common} (operator : Operator) :
      Act (.caller n) c .idle c (.commanding operator)
  | attend {n : Nat} {c : Common} {operator : Operator} :
      Act (.caller n) c (.commanding operator) c (.commanded operator)
  | refuse {n : Nat} {c : Common} {operator : Operator} {x : Fault} (now : Timestamp)
      (refused : c.record.command operator now = .error x) :
      Act (.caller n) c (.commanded operator) c .idle
  | prepare {n : Nat} {c : Common} {operator : Operator} {record : Dag} {lines : LogLines}
      (now : Timestamp) (accepted : c.record.command operator now = .ok (record, lines)) :
      Act (.caller n) c (.commanded operator) c (.prepared operator c.record record)
  | commit {n : Nat} {c : Common} {operator : Operator} {read record : Dag} (later : Timestamp)
      (same : c.record.version = read.version) :
      Act (.caller n) c (.prepared operator read record) (c.write (.caller n) record later)
        (.committed operator)
  | missCommand {n : Nat} {c : Common} {operator : Operator} {read record : Dag}
      (other : c.record.version ≠ read.version) :
      Act (.caller n) c (.prepared operator read record) c .idle
  | start {n : Nat} {c : Common} {operator : Operator} (start : operator ≠ .cancel) :
      Act (.caller n) c (.committed operator) c.spawn .idle
  | revoke {n : Nat} {c : Common} :
      Act (.caller n) c (.committed .cancel) { c with entry := none } (.revoking c.entry)
  | cancel {n : Nat} {c : Common} {g : Nat} :
      Act (.caller n) c (.revoking (some g)) (c.cancel g) .idle
  | release {n : Nat} {c : Common} : Act (.caller n) c (.revoking none) c .idle
  -- A caller starts the loop of a dag that it has submitted, or recovers one.
  | «begin» {n : Nat} {c : Common} : Act (.caller n) c .submitted c .starting
  | find {n : Nat} {c : Common} (running : c.record.isRunning) :
      Act (.caller n) c .idle c (.found c.record.interrupted)
  | skip {n : Nat} {c : Common} (ended : ¬ c.record.isRunning) :
      Act (.caller n) c .idle { c with attended := true } .idle
  | restore {n : Nat} {c : Common} {left : List Task} :
      Act (.caller n) c (.found left) c (.restoring left)
  | recover {n : Nat} {c : Common} {t : Task} {left : List Task} (registry : Registry)
      (now : Timestamp) :
      Act (.caller n) c (.restoring (t :: left))
        (c.write (.caller n)
          (c.record.modifyTask t.id (Store.withStatus (registry.recovered t).1 now)) now)
        (.restoring left)
  | restored {n : Nat} {c : Common} : Act (.caller n) c (.restoring []) c .starting
  | serve {n : Nat} {c : Common} :
      Act (.caller n) c .starting { c.spawn with attended := true } .idle

/-- A dag, its lock, and everyone at work on it. -/
structure Arena where
  common : Common
  lock : Option Process
  posts : Process → Post

namespace Arena

/-- Where a process stands that has done nothing yet. -/
def unmoved : Process → Post
  | .loop _ => .checking
  | .caller _ => .idle

/-- A dag has just been stored by a caller who submits it. -/
def submission (d : Dag) : Arena :=
  ⟨⟨d, none, 0, [], [], false, false, []⟩, none,
    Function.update unmoved (.caller 0) .submitted⟩

/-- A process may take steps. -/
def Present (s : Arena) : Process → Prop
  | .loop g => g ∈ s.common.started
  | .caller _ => True

/-- A process comes to another post, and takes or gives back the lock on its way. -/
def moved (s : Arena) (p : Process) (common : Common) (post : Post) : Arena where
  common := common
  lock := if post.inside then some p else if (s.posts p).inside then none else s.lock
  posts := Function.update s.posts p post

/-- One thing that can happen while the process of the system goes on. -/
inductive Goes : Arena → Arena → Prop where
  /-- A process acts. It comes to hold the lock only when that is free. -/
  | act {s : Arena} {p : Process} {common : Common} {post : Post} (present : s.Present p)
      (act : Act p s.common (s.posts p) common post)
      (free : (s.posts p).inside = false → post.inside = true → s.lock = none) :
      Goes s (s.moved p common post)
  /-- A loop of another dag is started and takes a generation. -/
  | elsewhere {s : Arena} : Goes s { s with common.next := s.common.next + 1 }
  /-- The system is shut down. -/
  | shutdown {s : Arena} : Goes s { s with common := s.common.shutdown }

/-- One thing that can happen. -/
inductive Step : Arena → Arena → Prop where
  | goes {s s' : Arena} (goes : Goes s s') : Step s s'
  /-- The process of the system stops, and begins again with what is stored. -/
  | halt {s : Arena} : Step s ⟨s.common.halt, none, unmoved⟩

/-- What can come of the submission of a dag. -/
inductive Reached : Arena → Prop where
  | submission {registry : Registry} {ids : FreshIds} {spec : DagSpec} {now : Timestamp} {d : Dag}
      (fresh : ids.DistinctFor spec) (built : spec.build registry ids now = .ok d) :
      Reached (submission d)
  | next {s s' : Arena} (reached : Reached s) (step : Step s s') : Reached s'

/-- The loop has not ended. -/
def AtWork (s : Arena) (g : Nat) : Prop := g ∈ s.common.started ∧ s.posts (.loop g) ≠ .gone

/-- The loop has not ended, and is not told to. -/
def Driving (s : Arena) (g : Nat) : Prop := s.AtWork g ∧ g ∉ s.common.cancelled

end Arena

end Stagewise
