import Stagewise.Json.Decode
/-!
# Operator commands and capabilities

The commands an operator may give to a dag, and the flags of a task that allow them. A freshly
submitted dag is under the command `run`, which no operator can give.
-/

namespace Stagewise

/-- A command applied to a dag. -/
inductive Operator where
  | run | retry | pass | rollback | cancel
  deriving DecidableEq, Repr, Inhabited

namespace Operator

def text : Operator → String
  | .run => "RUN"
  | .retry => "RETRY"
  | .pass => "PASS"
  | .rollback => "ROLLBACK"
  | .cancel => "CANCEL"

instance : ToString Operator := ⟨text⟩

def all : List Operator := [.run, .retry, .pass, .rollback, .cancel]

def named : List (String × Operator) := all.map fun o => (o.text, o)

/-- A text with its small Latin letters as capitals. -/
def capitals (s : String) : String := String.ofList (s.toList.map Char.toUpper)

/-- Reads the name of a command in any case. -/
def parse? (s : String) : Option Operator := named.lookup (capitals s)

instance : Document Operator where
  toJson o := .text o.text
  ofJson := Decode.case named "DagOperator"

end Operator

/-- What an operator may do to a task, and whether it may go on after a restart. Fixed when the task
is made. -/
structure Capabilities where
  canContinue : Bool
  canRollback : Bool
  canRetry : Bool
  canPass : Bool
  canCancel : Bool
  deriving DecidableEq, Repr, Inhabited

namespace Capabilities

def none : Capabilities := ⟨false, false, false, false, false⟩

def all : Capabilities := ⟨true, true, true, true, true⟩

/-- The task may only go on after a restart. -/
def standard : Capabilities := { none with canContinue := true }

def permits (c : Capabilities) : Operator → Bool
  | .run => true
  | .retry => c.canRetry
  | .pass => c.canPass
  | .rollback => c.canRollback
  | .cancel => c.canCancel

instance : Document Capabilities where
  toJson c := .object [("can_continue", .bool c.canContinue), ("can_rollback", .bool c.canRollback),
    ("can_retry", .bool c.canRetry), ("can_pass", .bool c.canPass),
    ("can_cancel", .bool c.canCancel)]
  ofJson :=
    Decode.record "Capabilities" ["can_continue", "can_rollback", "can_retry", "can_pass",
      "can_cancel"]
    fun g => do
      let canContinue ← g.required "can_continue" Decode.bool
      let canRollback ← g.required "can_rollback" Decode.bool
      let canRetry ← g.required "can_retry" Decode.bool
      let canPass ← g.required "can_pass" Decode.bool
      let canCancel ← g.required "can_cancel" Decode.bool
      return { canContinue, canRollback, canRetry, canPass, canCancel }

end Capabilities

end Stagewise
