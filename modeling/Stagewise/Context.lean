import Stagewise.Agent
import Stagewise.Timestamp
/-!
# Task contexts and logs

What a task carries along: the agent that does the work, the parameters given at submission, and the
results of its runs so far. Parameters and results are free values, decoded when they are asked for.
-/

namespace Stagewise

/-- One line of a task's log. -/
structure LogEntry where
  timestamp : Timestamp
  message : String
  deriving DecidableEq, Repr, Inhabited

namespace LogEntry

def text (e : LogEntry) : String := "[" ++ e.timestamp.withMillis ++ "] " ++ e.message

instance : Document LogEntry where
  toJson e := .object [("timestamp", toJson e.timestamp), ("message", .text e.message)]
  ofJson := Decode.record "TaskLogEntry" ["timestamp", "message"] fun g => do
    let timestamp ← g.required "timestamp" Document.ofJson
    let message ← g.required "message" Decode.text
    return { timestamp, message }

end LogEntry

/-- Why a parameter cannot be had. -/
inductive ParamError where
  | missing (key : String)
  | invalid (key : String) (error : DecodeError)
  deriving Repr

def ParamError.message : ParamError → String
  | .missing key => s!"missing task parameter '{key}'"
  | .invalid key error => s!"invalid task parameter '{key}': {error.message}"

/-- The agent that does the work of a task, its parameters and its results so far. -/
structure TaskContext where
  executeAgent : Agent
  params : Fields
  results : Fields
  deriving Repr, Inhabited

namespace TaskContext

def new (agent : Agent) : TaskContext := ⟨agent, .empty, .empty⟩

def withParam (c : TaskContext) (key : String) (value : Json) : TaskContext :=
  { c with params := c.params.insert key value }

def setResult (c : TaskContext) (key : String) (value : Json) : TaskContext :=
  { c with results := c.results.insert key value }

/-- A parameter that has to be there. -/
def param {α : Type} (c : TaskContext) (key : String) (decode : Json → Decoded α) :
    Except ParamError α :=
  match c.params.get? key with
  | none => .error (.missing key)
  | some j => (decode j).mapError (.invalid key)

/-- A parameter that may be missing or null. -/
def param? {α : Type} (c : TaskContext) (key : String) (decode : Json → Decoded α) :
    Except ParamError (Option α) :=
  match c.params.get? key with
  | none | some .null => .ok none
  | some _ => (c.param key decode).map some

/-- A result, if it is there and can be decoded. -/
def result? {α : Type} (c : TaskContext) (key : String) (decode : Json → Decoded α) : Option α :=
  (c.results.get? key).bind fun j => (decode j).toOption

instance : Document TaskContext where
  toJson c := .object [("execute_agent", toJson c.executeAgent), ("params", .object c.params.rows),
    ("results", .object c.results.rows)]
  ofJson := Decode.record "TaskContext" ["execute_agent", "params", "results"] fun g => do
    let executeAgent ← g.required "execute_agent" Document.ofJson
    let params ← g.withDefault "params" Decode.fields .empty
    let results ← g.withDefault "results" Decode.fields .empty
    return { executeAgent, params, results }

end TaskContext

end Stagewise
