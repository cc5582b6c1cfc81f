import Stagewise.Cli.Command
/-!
# Forms of commands

Which words and options a command takes, and which words and values they accept. Commands stand in
groups; some options may be given with every command and every group.
-/

namespace Stagewise.Cli

/-- An option: one that takes a value, which has to be accepted, or a switch. -/
structure OptionForm where
  name : String
  accepts : Option (String → Bool)
  about : String

/-- A word that a command takes. -/
structure WordForm where
  name : String
  accepts : String → Bool

/-- The form of a command, or of a group of commands. -/
structure Form where
  about : String
  members : List String := []
  words : List WordForm := []
  options : List OptionForm := []

/-- Whether a group is meant, which needs one of its members. -/
def Form.isGroup (f : Form) : Bool := !f.members.isEmpty

/-- A number with or without a sign, within 32 bits. -/
def count32? (s : String) : Option Nat :=
  match s.toList with
  | '-' :: digits => (Text.natOfDigits? digits).bind fun n => if n = 0 then some 0 else none
  | _ => Text.boundedNat? (Nat.pow 2 32 - 1) s

/-- A number within 64 bits. -/
def count64? (s : String) : Option Nat := Text.boundedNat? (Nat.pow 2 64 - 1) s

def anything (_ : String) : Bool := true

def commonOptions : List OptionForm :=
  [⟨"server", some anything, "Agent API address"⟩,
   ⟨"token", some anything, "Bearer token for the agent API"⟩,
   ⟨"verbose", none, "More log output (-v, -vv)"⟩]

def followingOptions : List OptionForm :=
  [⟨"agent", some fun s => (Agent.parse? s).isSome,
    "Query this agent (ip:port) directly instead of --server"⟩,
   ⟨"upgrade", none, "Query through the upgrade path, falling back to the plain one"⟩,
   ⟨"retry-times", some fun s => (count32? s).isSome,
    "Consecutive fetch failures tolerated before giving up"⟩,
   ⟨"log-tail", some fun s => (count64? s).isSome, "Log lines shown for a failed task"⟩]

/-- Options of commands after which a dag may be followed. -/
def steeringOptions : List OptionForm :=
  ⟨"no-watch", none, "Return right after the command"⟩ :: followingOptions

def dagWord : WordForm := ⟨"DAG_ID", fun s => (DagId.parse? s).isSome⟩

def taskWord : WordForm := ⟨"TASK_ID", fun s => (TaskId.parse? s).isSome⟩

def fileWord : WordForm := ⟨"FILE", fun s => !s.isEmpty⟩

/-- The form of the command or group of that path, apart from the options that may be given
everywhere. -/
def Form.ofPath? : List String → Option Form
  | [] =>
    some { about := "Drive DAGs on a shoal agent", members := ["dag", "operations", "health"] }
  | ["dag"] =>
    some { about := "Work with DAGs",
           members := ["submit", "list", "show", "watch", "retry", "pass", "rollback", "cancel",
             "logs", "events"] }
  | ["operations"] => some { about := "List the operation types the agent can run" }
  | ["health"] => some { about := "Check that the agent is up" }
  | ["dag", "submit"] =>
    some { about := "Submit a DAG from a JSON or TOML file", words := [fileWord],
           options := steeringOptions }
  | ["dag", "list"] => some { about := "List DAGs, newest first" }
  | ["dag", "show"] => some { about := "Show a DAG with its nodes and tasks", words := [dagWord] }
  | ["dag", "watch"] =>
    some { about := "Follow a DAG until it finishes. Ctrl-C cancels it", words := [dagWord],
           options := followingOptions }
  | ["dag", "retry"] =>
    some { about := "Retry the failed tasks of the current stage", words := [dagWord],
           options := steeringOptions }
  | ["dag", "pass"] =>
    some { about := "Mark the failed tasks of the current stage as succeeded", words := [dagWord],
           options := steeringOptions }
  | ["dag", "rollback"] =>
    some { about := "Undo every executed stage, newest first", words := [dagWord],
           options := steeringOptions }
  | ["dag", "cancel"] => some { about := "Cancel a running or failed DAG", words := [dagWord] }
  | ["dag", "logs"] =>
    some { about := "Print the execution log of a task", words := [dagWord, taskWord],
           options := [⟨"tail", some fun s => (count64? s).isSome, "Only the last N lines"⟩] }
  | ["dag", "events"] => some { about := "Print the audit trail of a DAG", words := [dagWord] }
  | _ => none

end Stagewise.Cli
