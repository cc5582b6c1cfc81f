import Stagewise.Operator
import Stagewise.Status
import Stagewise.Uuid
/-!
# Errors of the engine

What the engine refuses or fails at, with the wording of each. A storage error carries the chain of
its causes, the outermost first.
-/

namespace Stagewise

/-- A failure with the chain of its causes, the outermost message first. -/
structure Failure where
  outer : String
  causes : List String
  deriving DecidableEq, Repr, Inhabited

namespace Failure

def of (message : String) : Failure := ⟨message, []⟩

/-- The failure as the cause of a new outermost message. -/
def within (f : Failure) (message : String) : Failure := ⟨message, f.outer :: f.causes⟩

def chain (f : Failure) : List String := f.outer :: f.causes

def inline (f : Failure) : String := String.intercalate ": " f.chain

end Failure

/-- What the engine refuses or fails at. -/
inductive EngineError where
  | notPermitted (command : Operator) (task : String)
  | unknownType (name : String)
  | duplicateType (name : String)
  | taskFailed (message : String)
  | dagNotFound (dag : DagId)
  | taskNotFound (task : String)
  | invalidState (dag : DagId) (status : DagStatus) (command : Operator)
  | invalidDag (reason : String)
  | invalidAddress (text : String)
  | versionConflict (dag : DagId) (expected : Nat)
  | dispatch (agent message : String)
  | storage (failure : Failure)
  deriving DecidableEq, Repr, Inhabited

namespace EngineError

/-- The wording of an error. Of a storage error it is the outermost message only. -/
def message : EngineError → String
  | .notPermitted command task =>
    s!"operation not permitted: {command} is not allowed on task '{task}'"
  | .unknownType name => s!"unknown operation type: {name}"
  | .duplicateType name => s!"operation type registered twice: {name}"
  | .taskFailed text => s!"task execution failed: {text}"
  | .dagNotFound dag => s!"dag not found: {dag}"
  | .taskNotFound task => s!"task not found: {task}"
  | .invalidState dag status command => s!"cannot {command} dag {dag} while it is {status}"
  | .invalidDag reason => s!"invalid dag: {reason}"
  | .invalidAddress text => s!"invalid agent address: {text}"
  | .versionConflict dag expected =>
    s!"dag {dag} was modified concurrently (expected version {toString expected})"
  | .dispatch agent text => s!"dispatch to agent {agent} failed: {text}"
  | .storage failure => s!"storage error: {failure.outer}"

/-- Errors of logic and version, which no second attempt mends. -/
def isPermanent : EngineError → Bool
  | .notPermitted .. | .unknownType _ | .duplicateType _ | .dagNotFound _ => true
  | _ => false

def chain : EngineError → List String
  | .storage failure => s!"storage error: {failure.outer}" :: failure.chain
  | e => [e.message]

end EngineError

abbrev EngineResult (α : Type) := Except EngineError α

end Stagewise
