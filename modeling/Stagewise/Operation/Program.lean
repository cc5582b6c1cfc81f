import Stagewise.Dispatch.Message
import Stagewise.Error
/-!
# Programs of operations

An operation is a program that logs lines, changes its context, looks at its run, waits, and ends
well or badly. It may ask whether its run has been told to stop, and wait for that as well as for a
time. A wait in which it does not listen is broken off when the run is told to stop. Played from a
run, a program gives its timeline: what it does, each at its distance in milliseconds from the
start, and when and how it ends.
-/

namespace Stagewise

/-- What a program sees of its own run: where it takes place, its context, and the lines it has
logged. -/
structure Run where
  dagId : DagId
  taskId : TaskId
  context : TaskContext
  localAgent : Agent
  lines : List String
  deriving Repr, Inhabited

/-- The run takes place on the agent that does the work. -/
def Run.isExecuteAgent (r : Run) : Bool := r.localAgent == r.context.executeAgent

/-! ## Time and stops -/

/-- An instant of a run: a millisecond from its start, and how much has been done in it before. At
the end of a millisecond there is no saying how much. -/
structure Instant where
  ms : Nat
  deeds : Option Nat
  deriving DecidableEq, Repr

namespace Instant

def start : Instant := ⟨0, some 0⟩

/-- The instant after something was done. -/
def next (i : Instant) : Instant := { i with deeds := i.deeds.map (· + 1) }

/-- The instant after a time. Even when that is none, something was done. -/
def after (i : Instant) (ms : Nat) : Instant := if ms = 0 then i.next else ⟨i.ms + ms, some 0⟩

def isBefore (i j : Instant) : Bool :=
  i.ms < j.ms || i.ms == j.ms && match i.deeds, j.deeds with
    | some n, some m => n < m
    | some _, none => true
    | none, _ => false

end Instant

/-- When a run is told to stop. Told while the work waits, or at the very instant at which that is
over, the one who runs it may notice `first`, or the work may. -/
inductive Stop where
  | never
  | beforehand
  | midway (at' : Instant) (first : Bool)
  deriving DecidableEq, Repr

/-- How a wait ends: its time has passed, or the work hears that it is told to stop, and goes on at
an instant; or the work is broken off. -/
inductive Waited where
  | passed (now : Instant)
  | told (now : Instant)
  | brokenOff (ms : Nat)
  deriving DecidableEq, Repr

namespace Stop

/-- The work is not even begun. -/
def forestalls : Stop → Bool
  | .never => false
  | .beforehand => true
  | .midway at' first => first && at' == .start

/-- By this instant the run has been told to stop. -/
def told (now : Instant) : Stop → Bool
  | .never => false
  | .beforehand => true
  | .midway at' _ => !now.isBefore at'

/-- How a wait ends that would be over at the instant `wake`, or never. Work that listens goes on
when it is told to stop, and other work is broken off. -/
def wait? (listens : Bool) (now : Instant) (wake : Option Instant) (stop : Stop) : Option Waited :=
  if stop.told now then some (if listens then .told now.next else .brokenOff now.ms)
  else
    match stop with
    | .midway at' first =>
      if wake.any fun w => w.isBefore at' || w == at' && !first then wake.map .passed
      else some (if listens && !first then .told at' else .brokenOff at'.ms)
    | _ => wake.map .passed

end Stop

/-! ## Programs and timelines -/

/-- The behaviour of an operation. A wait has a time, or goes on for ever; only in one in which it
listens does the program get to what it does when it is told to stop. -/
inductive Program where
  | done
  | fail (failure : Failure)
  | log (line : String) (next : Program)
  | change (f : TaskContext → TaskContext) (next : Program)
  | look (next : Run → Program)
  | ask (next : Bool → Program)
  | wait (ms : Option Nat) (listens : Bool) (next told : Program)

namespace Program

def setResult (key : String) (value : Json) (next : Program) : Program :=
  .change (·.setResult key value) next

/-- Waits without listening. -/
def pause (ms : Nat) (next : Program) : Program := .wait (some ms) false next .done

def hang : Program := .wait none false .done .done

/-- Waits for a time, or until it is told to stop. -/
def await (ms : Option Nat) (next told : Program) : Program := .wait ms true next told

end Program

/-- The failure of a run that is broken off. -/
def Failure.cancelled : Failure := .of "task cancelled"

/-- Something that a run does at a moment, in milliseconds from its start. The moment at which the
wait before it began decides which of two runs goes first when both wake at once. -/
inductive Deed where
  | line (text : String)
  | context (after : TaskContext)
  deriving Repr

/-- A deed with its moment. -/
structure Moment where
  since : Nat
  at' : Nat
  deed : Deed
  deriving Repr

/-- How and when a timeline ends. -/
structure Ending where
  since : Nat
  at' : Nat
  result : Except Failure Unit
  deriving Repr

/-- What a run does, in order, and how it ends, if it ever does. -/
structure Timeline where
  moments : List Moment
  ending : Option Ending
  deriving Repr

namespace Timeline

def cons (m : Moment) (t : Timeline) : Timeline := { t with moments := m :: t.moments }

def lines (t : Timeline) : List (Nat × String) :=
  t.moments.filterMap fun m => match m.deed with
    | .line s => some (m.at', s)
    | .context _ => none

def contextAfter (t : Timeline) (c : TaskContext) : TaskContext :=
  t.moments.foldl (fun c m => match m.deed with
    | .line _ => c
    | .context after => after) c

end Timeline

/-- The timeline of a program from an instant of a run on, which is told to stop. -/
def Program.play (stop : Stop) : Program → (since : Nat) → (now : Instant) → Run → Timeline
  | .done, since, now, _ => ⟨[], some ⟨since, now.ms, .ok ()⟩⟩
  | .fail failure, since, now, _ => ⟨[], some ⟨since, now.ms, .error failure⟩⟩
  | .log line next, since, now, r =>
    (next.play stop since now.next { r with lines := r.lines ++ [line] }).cons
      ⟨since, now.ms, .line line⟩
  | .change f next, since, now, r =>
    (next.play stop since now.next { r with context := f r.context }).cons
      ⟨since, now.ms, .context (f r.context)⟩
  | .look next, since, now, r => (next r).play stop since now.next r
  | .ask next, since, now, r => (next (stop.told now)).play stop since now.next r
  | .wait ms listens next told, _, now, r =>
    match stop.wait? listens now (ms.map now.after) with
    | some (.passed later) => next.play stop now.ms later r
    | some (.told later) => told.play stop now.ms later r
    | some (.brokenOff moment) => ⟨[], some ⟨now.ms, moment, .error .cancelled⟩⟩
    | none => ⟨[], none⟩

/-- An operation type: the name it is registered under, what operators may do to its tasks, and its
behaviour forward and backward, which may depend on how often it has been called before. Without a
backward behaviour there is nothing to compensate. -/
structure Operation where
  typeName : String
  capabilities : Capabilities
  execute : Nat → Program
  rollback : Option (Nat → Program)

/-- What an operation without a backward behaviour does on a rollback. -/
def Program.nothingToRollBack : Program := .log "nothing to roll back" .done

/-- The behaviour of an operation in a direction, called for the `n`-th time. -/
def Operation.program (o : Operation) (action : Action) (n : Nat) : Program :=
  match action with
  | .execute => o.execute n
  | .rollback => match o.rollback with
    | some program => program n
    | none => .nothingToRollBack

/-- Whether an operation has a behaviour of its own in a direction. -/
def Operation.behaves (o : Operation) : Action → Bool
  | .execute => true
  | .rollback => o.rollback.isSome

end Stagewise
