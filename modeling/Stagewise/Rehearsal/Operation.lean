import Stagewise.Json.Access
import Stagewise.Operation.Registry
/-!
# Rehearsed operations

A plan can be rehearsed before any of its work is done: its operation types are then documents that
list, run by run, what the operation logs, sets, waits for and fails at.
-/

namespace Stagewise.Rehearsal

/-- Capabilities by a word for all or none of them, or by a list of what is allowed. -/
def capabilities : Json → Capabilities
  | .text "all" => .all
  | .text "none" => .none
  | .list items =>
    let allowed (word : String) : Bool := (Json.list items).asTexts.contains word
    ⟨allowed "continue", allowed "rollback", allowed "retry", allowed "pass", allowed "cancel"⟩
  | _ => .standard

/-- Decodes a value of a kind and gives its document. -/
def valueOfKind (kind : String) (j : Json) : Decoded Json :=
  match kind with
  | "u64" => (Decode.unsigned 64 j).map fun n => .int n
  | "i64" => (Decode.signed 64 j).map .int
  | "i32" => (Decode.signed 32 j).map .int
  | "u16" => (Decode.unsigned 16 j).map fun n => .int n
  | "bool" => (Decode.bool j).map .bool
  | "string" => (Decode.text j).map .text
  | "strings" => (Decode.list Decode.text j).map fun ss => .list (ss.map .text)
  | "agent" => (Document.ofJson j : Decoded Agent).map toJson
  | _ => .ok j

/-- A failure by the list of its messages, the outermost first. -/
def failure (j : Json) : Failure :=
  match j.asTexts with
  | [] => .of ""
  | outer :: causes => ⟨outer, causes⟩

/-- Looks a parameter or result up. -/
def lookUp (what : String) (request : Json) (c : TaskContext) : Except ParamError (Option Json) :=
  let key := request.textAt "key"
  let decode := valueOfKind (request.textAt "as")
  match what with
  | "param" => (c.param key decode).map some
  | "param_opt" => c.param? key decode
  | _ => .ok (c.result? key decode)

/-- What an action does before the rest of a run. -/
def act (action : String) (j : Json) (next : Program) : Program :=
  match action with
  | "log" => .log (j.asText?.getD "") next
  | "sleep" => .pause (j.asNat?.getD 0) next
  | "fail" => .fail (failure j)
  | "set" => j.asMembers.foldr (fun (k, v) p => .setResult k v p) next
  | "incr" =>
    let key := j.asText?.getD ""
    .look fun r =>
      .setResult key (.int ((r.context.result? key (Decode.unsigned 64)).getD 0 + 1)) next
  | "whoami" => .look fun r => .log s!"{r.localAgent} real={r.isExecuteAgent}" next
  | "state" => .look fun r => .ask fun told =>
    .log s!"lines={r.lines.length} cancelled={told}" next
  | _ => .look fun r => match lookUp action j r.context with
    | .ok value => .log (j.textAt "key" ++ "=" ++ (value.getD .null).normalize.compact) next
    | .error e => .fail (.of e.message)

/-- The program of a list of actions, each under its name. -/
def program (actions : List Json) : Program :=
  actions.foldr (fun action next => match action with
    | .object [(name, j)] => act name j next
    | _ => next) .done

/-- The entry that comes at the n-th time; the last one comes again and again. -/
def nth? (entries : List Json) (n : Nat) : Option Json := entries[min n (entries.length - 1)]?

def run (runs : List Json) (n : Nat) : Program :=
  ((nth? runs n).map fun r => program r.asList).getD .done

/-- The operation that a document describes. -/
def operation (j : Json) : Operation where
  typeName := j.textAt "type"
  capabilities := capabilities (j.field "caps")
  execute := run (j.itemsAt "execute")
  rollback := match j.field "rollback" with
    | .list runs => some (run runs)
    | _ => none

def registry (types : List Json) : EngineResult Registry := Registry.ofList (types.map operation)

end Stagewise.Rehearsal
