import Stagewise.Engine.Drive
/-!
# Scheduling

Which drive loop goes on when. Loops that are ready go first, in the order in which they were
started; then time moves to the next moment at which a call does something. Of the loops that wake
at one moment, the one that has waited longest goes first. Nothing that is due at the end of a span
of time happens within it.
-/

namespace Stagewise

namespace Loop

def isReady (l : Loop) : Bool :=
  match l.phase with
  | .ready => true
  | .waiting .. => false

/-- The earlier of two moments; of two at the same time the one waited for longer. -/
def earlier (a b : Nat × Nat) : Nat × Nat := if b.1 < a.1 || (b.1 == a.1 && b.2 < a.2) then b else a

def next? (l : Loop) : Option (Nat × Nat) :=
  match l.phase with
  | .ready => none
  | .waiting _ _ calls => (calls.filterMap Call.next?).foldl (fun
      | none, m => some m
      | some a, m => some (earlier a m)) none

/-- Puts a loop behind those that have waited longer. -/
def insertByWait (l : Loop × Nat) : List (Loop × Nat) → List (Loop × Nat)
  | [] => [l]
  | m :: rest => if l.2 < m.2 then l :: m :: rest else m :: insertByWait l rest

end Loop

namespace Engine

variable {σ : Type}

/-- The steps that one loop may take in one go, and the moments that one span of time may hold. -/
def patience : Nat := 100000

/-- Lets one loop go on. -/
def wake (l : Loop) : EngineM σ Unit := do
  match ← drive l.dag l.generation patience l.phase with
  | some phase =>
    modify fun e => { e with loops := e.loops.map fun m =>
      if m.dag == l.dag && m.generation == l.generation then { m with phase } else m }
  | none =>
    modify fun e =>
      { e with loops := e.loops.filter fun m => !(m.dag == l.dag && m.generation == l.generation) }

def nextMoment? (e : Engine σ) : Option Nat :=
  (e.loops.filterMap fun l => l.next?.map (·.1)).min?

/-- The loops that wake at a moment, those that have waited longest first. -/
def waking (e : Engine σ) (ms : Nat) : List Loop :=
  let due := e.loops.filterMap fun l => l.next?.bind fun (at', since) =>
    if at' ≤ ms then some (l, since) else none
  (due.foldl (fun acc l => Loop.insertByWait l acc) []).map (·.1)

/-- Lets the next thing happen, if something happens before `limit`: either the ready loops go on,
or time moves to the next moment. Otherwise time moves to `limit` and nothing more happens. -/
def happen (limit : Nat) : EngineM σ Bool := do
  let e ← get
  if limit ≤ e.clock.ms then return false
  let ready := e.loops.filter (·.isReady)
  if !ready.isEmpty then
    ready.forM wake
    return true
  match e.nextMoment? with
  | some ms =>
    if ms < limit then
      modify fun e => { e with clock := e.clock.moveTo ms }
      (e.waking ms).forM wake
      return true
    else
      modify fun e => { e with clock := e.clock.moveTo limit }
      return false
  | none =>
    modify fun e => { e with clock := e.clock.moveTo limit }
    return false

/-- Lets things happen before `limit` until `stop` holds. -/
def happenUntil (stop : Engine σ → Bool) (limit : Nat) : (fuel : Nat) → EngineM σ Unit
  | 0 => return ()
  | fuel + 1 => do
    if stop (← get) then return ()
    if ← happen limit then happenUntil stop limit fuel

def advance (ms : Nat) : EngineM σ Unit := do
  happenUntil (fun _ => false) ((← get).clock.ms + ms) patience

/-- Lets time pass until no dag is active, at most `ms` milliseconds. -/
def settle (ms : Nat) : EngineM σ Unit := do
  happenUntil (·.active.isEmpty) ((← get).clock.ms + ms) patience

end Engine

end Stagewise
