import Stagewise.Operation.Registry
/-!
# Built-in operation types

The operation types that every agent knows: one that does nothing, one that waits, and one that runs
a program of the machine it is on. What running a program comes to is up to the machine.
-/

namespace Stagewise

/-- How a program that was started ended; one whose output is no text is not waited for. -/
inductive ProgramEnd where
  | exited (code : Int)
  | killed
  | garbled
  deriving DecidableEq, Repr

/-- What starting a program comes to: the reason why it cannot be started; or its lines and how it
ends, each so many milliseconds after what comes before. It may go on for ever. -/
inductive Launch where
  | refused (cause : String)
  | ran (lines : List (Nat × String)) (ending : Option (Nat × ProgramEnd))
  deriving DecidableEq, Repr

abbrev Machine := (command : String) → (arguments : List String) → Launch

namespace Program

/-- Waits for lines and logs each when it comes. -/
def follow (lines : List (Nat × String)) (next : Program) : Program :=
  lines.foldr (fun (ms, line) next => .pause ms (.log line next)) next

def withParam {α : Type} (value : Run → Except ParamError α) (next : α → Program) : Program :=
  .look fun r => match value r with
    | .ok a => next a
    | .error e => .fail (.of e.message)

end Program

namespace Builtin

def noop : Operation where
  typeName := "noop"
  capabilities := .all
  execute _ := .log "nothing to do" .done
  rollback := none

/-- Waits so many seconds, or until it is told to stop. -/
def wait : Operation where
  typeName := "wait"
  capabilities := { Capabilities.all with canRollback := false }
  execute _ :=
    .withParam (fun r => r.context.param "seconds" (Decode.unsigned 64)) fun seconds =>
      .log s!"waiting {toString seconds}s" <|
        .await (some (1000 * seconds)) (.log "wait finished" .done) (.fail (.of "wait interrupted"))
  rollback := none

/-- What becomes of a program of the machine that has ended. -/
def conclude (command : String) : ProgramEnd → Program
  | .exited code => .setResult "exit_code" (.int code) <|
    if code = 0 then .done else .fail (.of s!"'{command}' exited with code {Text.ofInt code}")
  | .killed =>
    .setResult "exit_code" .null (.fail (.of s!"'{command}' was terminated by a signal"))
  | .garbled => .fail (.of "stream did not contain valid UTF-8")

/-- Runs a program of the machine, logs its lines as they come and keeps the code that it ends with.
Until then it does not hear when it is told to stop. -/
def launch (machine : Machine) (command : String) (arguments : List String) : Program :=
  .log ("$ " ++ command ++ " " ++ String.intercalate " " arguments) <|
    match machine command arguments with
    | .refused cause => .fail ((Failure.of cause).within s!"failed to start '{command}'")
    | .ran lines (some (ms, ending)) => .follow lines (.pause ms (conclude command ending))
    | .ran lines none => .follow lines .hang

def arguments (key : String) (r : Run) : Except ParamError (List String) :=
  (r.context.param? key (Decode.list Decode.text)).map (·.getD [])

/-- Runs the program given by `command` and `args`, and to compensate the one given by
`rollback_command` and `rollback_args`, if there is one. -/
def script (machine : Machine) : Operation where
  typeName := "script"
  capabilities := { Capabilities.all with canContinue := false }
  execute _ :=
    .withParam (fun r => r.context.param "command" Decode.text) fun command =>
      .withParam (arguments "args") fun args => launch machine command args
  rollback := some fun _ =>
    .withParam (fun r => r.context.param? "rollback_command" Decode.text) fun
      | none => .log "no rollback_command given, nothing to roll back" .done
      | some command => .withParam (arguments "rollback_args") fun args =>
        launch machine command args

def registry (machine : Machine) : Registry :=
  .ofSorted [noop, script machine, wait] <|
    show ["noop", "script", "wait"].Pairwise (· < ·) by decide

end Builtin

end Stagewise
