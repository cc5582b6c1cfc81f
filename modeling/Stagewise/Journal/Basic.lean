import Stagewise.Error
import Stagewise.Event
import Stagewise.Journal.Volume
/-!
# The journal

The events of every dag. New events wait in a buffer and are written when thirty-two of one dag have
gathered or when they are asked for. They are written to one file for each dag and day, one line for
each event; a file is read and written anew whenever events are added to it.
-/

namespace Stagewise

/-- The events that wait, by dag, and the files. -/
structure Journal where
  waiting : List (DagId × List Event)
  volume : Volume
  deriving Repr, Inhabited

namespace Journal

def empty : Journal := ⟨[], .empty⟩

/-- The number of waiting events of one dag at which they are written. -/
def flushThreshold : Nat := 32

def waitingFor (j : Journal) (dag : DagId) : List Event := (j.waiting.lookup dag).getD []

def fileName (dag : DagId) : String := s!"{dag}.jsonl.gz"

/-- A year as the name of a directory: at least four characters, the sign among them. -/
def yearName (year : Int) : String :=
  String.ofList (if year < 0 then '-' :: Text.padded 3 year.natAbs else Text.padded 4 year.natAbs)

/-- The path of the file of a dag and a day. -/
def path (dag : DagId) (day : Day) : FilePath :=
  ["events", yearName day.year, String.ofList (Text.padded 2 day.month),
   String.ofList (Text.padded 2 day.day), fileName dag]

/-- The events of a text with one event on each line that is not empty. -/
def eventsOfText (text : String) : Except Failure (List Event) :=
  ((Text.lines text).filter (!·.isEmpty)).mapM fun line =>
    match (Document.readText? line : Option Event) with
    | some e => .ok e
    | none => .error (.of "Failed to parse event")

def textOfEvents (events : List Event) : String :=
  String.join (events.map fun e => Document.text e ++ "\n")

def readFile : FileContent → Except Failure (List Event)
  | .packed text => eventsOfText text
  | .plain _ => .error (.of "Failed to read line from event log")

/-- The events of the file at a path; none if nothing is there. -/
def readPath (v : Volume) (p : FilePath) : Except Failure (List Event) :=
  match v.get? p with
  | some content => readFile content
  | none => if v.isDirectory p then .error (.of "Failed to read line from event log") else .ok []

/-- Adds events to the file of a dag and a day. -/
def addToDay (v : Volume) (dag : DagId) (day : Day) (events : List Event) :
    Except Failure Volume := do
  let p := path dag day
  if !v.canHold p then throw (.of "Failed to create event log directory")
  let old ← readPath v p
  return v.write p (.packed (textOfEvents (old ++ events)))

/-- The days of events, each once, in the order of their first events. -/
def days (events : List Event) : List Day := (events.map (·.timestamp.day)).eraseDups

/-- Adds events to the files of their days, one day after another; what was written before a failure
stays. -/
def addByDay (dag : DagId) (events : List Event) : List Day → Volume → Volume × Except Failure Unit
  | [], v => (v, .ok ())
  | day :: rest, v =>
    match addToDay v dag day (events.filter (·.timestamp.day == day)) with
    | .ok v => addByDay dag events rest v
    | .error e => (v, .error e)

/-- Writes the waiting events of a dag. They wait no longer, also when writing them fails. -/
def flush (j : Journal) (dag : DagId) : Journal × Except Failure Unit :=
  let events := j.waitingFor dag
  if events.isEmpty then (j, .ok ())
  else
    let (volume, result) := addByDay dag events (days events) j.volume
    (⟨j.waiting.filter (·.1 != dag), volume⟩, result)

/-- Writes the waiting events of dag after dag, up to the first failure. -/
def flushEach : List DagId → Journal → Journal × Except Failure Unit
  | [], j => (j, .ok ())
  | dag :: rest, j =>
    match j.flush dag with
    | (j, .ok ()) => flushEach rest j
    | (j, .error e) => (j, .error e)

def flushAll (j : Journal) : Journal × Except Failure Unit := flushEach (j.waiting.map (·.1)) j

/-- Puts an event behind the waiting events of its dag. -/
def wait (e : Event) : List (DagId × List Event) → List (DagId × List Event)
  | [] => [(e.dagId, [e])]
  | (dag, es) :: rest =>
    if dag = e.dagId then (dag, es ++ [e]) :: rest else (dag, es) :: wait e rest

def append (j : Journal) (e : Event) : Journal × Except Failure Unit :=
  let j := { j with waiting := wait e j.waiting }
  if flushThreshold ≤ (j.waitingFor e.dagId).length then j.flush e.dagId else (j, .ok ())

/-- The files of a dag, whatever the directories of three levels are called. -/
def filesOf (v : Volume) (dag : DagId) : List (FilePath × FileContent) :=
  v.files.filter fun (p, _) =>
    p.length == 5 && p.head? == some "events" && p.getLast? == some (fileName dag)

/-- Puts the earlier before the later; of two at the same time the one that stood first stays
first. -/
def insertByTime (e : Event) : List Event → List Event
  | [] => [e]
  | f :: rest => if e.timestamp.before f.timestamp then e :: f :: rest else f :: insertByTime e rest

def sortByTime (events : List Event) : List Event :=
  events.foldl (fun acc e => insertByTime e acc) []

/-- The events of a dag, sorted by time. Those that wait are written first. -/
def eventsOf (j : Journal) (dag : DagId) : Journal × Except Failure (List Event) :=
  match j.flush dag with
  | (j, .error e) => (j, .error e)
  | (j, .ok ()) =>
    let lists : Except Failure (List (List Event)) := (filesOf j.volume dag).mapM fun f =>
      readFile f.2
    (j, lists.map fun ls => sortByTime ls.flatten)

/-- The events of a dag between two points in time, both included. -/
def eventsBetween (j : Journal) (dag : DagId) (first last : Timestamp) :
    Journal × Except Failure (List Event) :=
  let (j, r) := j.eventsOf dag
  (j, r.map fun es => es.filter fun e => first.notAfter e.timestamp && e.timestamp.notAfter last)

end Journal

end Stagewise
