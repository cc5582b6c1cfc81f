import Stagewise.Api.Refusal
/-!
# Answers of an agent

An answer is a status and, except where the web itself refuses a request, a document. Unknown dags
and tasks are not found; a command that the record does not allow is a conflict; a request that can
never work is a bad one; all else is the agent's own failure.
-/

namespace Stagewise

/-- The answer to a request. -/
structure Answer where
  status : Nat
  body : Option Json
  deriving Repr, Inhabited

namespace Answer

def ok {α : Type} [Document α] (a : α) : Answer := ⟨200, some (toJson a)⟩

def bare (status : Nat) : Answer := ⟨status, none⟩

def refuse (status : Nat) (f : Failure) : Answer := ⟨status, some (toJson (Refusal.of f))⟩

def badRequest (message : String) : Answer := refuse 400 (.of message)

def notFound (message : String) : Answer := refuse 404 (.of message)

def failed (f : Failure) : Answer := refuse 500 f

end Answer

/-- The status under which an error of the engine is answered. -/
def EngineError.status : EngineError → Nat
  | .dagNotFound _ | .taskNotFound _ => 404
  | .notPermitted .. | .invalidState .. | .versionConflict .. => 409
  | .unknownType _ | .duplicateType _ | .invalidDag _ | .invalidAddress _ => 400
  | .taskFailed _ | .dispatch .. | .storage _ => 500

def Answer.ofError (e : EngineError) : Answer := refuse e.status e.failure

end Stagewise
