import Stagewise.Http.Percent
import Stagewise.Http.Message
/-!
# Routes of an agent

What the path of a request leads to, and which methods are served there. The parts of a path that
vary are any but the empty one; they are kept as they are written.
-/

namespace Stagewise.Server

/-- Where a path leads. -/
inductive Route where
  | health
  | operations
  | dags
  | dag (id : String)
  | operator (id : String)
  | events (id : String)
  | taskLogs (id task : String)
  | upgradeDag (id : String)
  | dispatch
  deriving DecidableEq, Repr

namespace Route

/-- Where a path leads, if it leads anywhere. -/
def ofPath? (path : String) : Option Route :=
  let varying (parts : List String) (route : Route) : Option Route :=
    if parts.contains "" then none else some route
  match path.splitOn "/" with
  | ["", "api", "health"] => some .health
  | ["", "api", "v1", "operations"] => some .operations
  | ["", "api", "v1", "dags"] => some .dags
  | ["", "api", "v1", "dags", id] => varying [id] (.dag id)
  | ["", "api", "v1", "dags", id, "operator"] => varying [id] (.operator id)
  | ["", "api", "v1", "dags", id, "events"] => varying [id] (.events id)
  | ["", "api", "v1", "dags", id, "tasks", task, "logs"] => varying [id, task] (.taskLogs id task)
  | ["", "api", "v1", "upgrade", "dags", id] => varying [id] (.upgradeDag id)
  | ["", "api", "v1", "agent", "dispatch"] => some .dispatch
  | _ => none

/-- Whether a route is open to requests without the token. -/
def isOpen (r : Route) : Bool := r == .health

def methods : Route → List String
  | .dags => ["GET", "HEAD", "POST"]
  | .operator _ | .dispatch => ["POST"]
  | _ => ["GET", "HEAD"]

end Route

/-- A varying part of a path as the text that it stands for, if it stands for one. -/
def partText? (part : String) : Option String := Http.textOfBytes? (Http.percentDecoded part.toList)

end Stagewise.Server
