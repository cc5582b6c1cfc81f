import Stagewise.Cli.Arguments
import Stagewise.Cli.Render
import Stagewise.Client.Handle
import Stagewise.Toml.Reader
/-!
# Running commands

What a command does in the world: it reads a file, talks to an agent, and prints lines. A dag that
failed has already been told of line by line, so that nothing is said about it once more at the end.
-/

namespace Stagewise.Cli

/-- The world of a command: a wire to the agents, a place to print lines, and files, which may not
be readable. -/
structure World (m : Type → Type) extends Wire m where
  say : (line : String) → m Unit
  contentOf : (path : String) → m (Except String String)

/-- Why a command does not end well. -/
inductive Trouble where
  | failed (failure : Failure)
  | dagFailed
  | broken
  deriving DecidableEq, Repr

def Trouble.of : ClientError → Trouble
  | .dagFailed .. => .dagFailed
  | e => .failed e.failure

/-- The code that a program with a trouble ends with. -/
def Trouble.code : Trouble → Nat
  | .failed _ | .dagFailed => 1
  | .broken => 101

def Trouble.line? : Trouble → Option String
  | .failed f => some ("Error: " ++ f.inline)
  | .dagFailed | .broken => none

def fileName? (path : String) : Option String :=
  match ((path.splitOn "/").filter fun name => !name.isEmpty && name != ".").getLast? with
  | some ".." => none
  | name => name

/-- What stands behind the last dot of a name that has something in front of it. -/
def extension? (path : String) : Option String := do
  let name := (← fileName? path).toList
  let behind := (name.reverse.takeWhile (· != '.')).reverse
  if behind.length + 1 < name.length then return String.ofList behind else none

/-- The spec that a text stands for, which is in one format or in the other. -/
def readSpec? (isToml : Bool) (content : String) : Option DagSpec :=
  if isToml then (Toml.read? content).bind fun j => (Document.ofJson j : Decoded DagSpec).toOption
  else Document.readText? content

variable {m : Type → Type} [Monad m]

abbrev Doing (m : Type → Type) := ExceptT Trouble m

def sayAll (w : World m) (lines : List String) : Doing m Unit := (lines.forM w.say : m Unit)

def call {α : Type} (w : World m) (c : Client) (call : ApiCall α) : Doing m α := do
  match ← (c.perform w.toWire call : m _) with
  | .ok a => return a
  | .error e => throw (.of e)

/-- The spec in a file. -/
def loadSpec (w : World m) (file : String) : Doing m DagSpec := do
  match ← (w.contentOf file : m _) with
  | .error cause => throw (.failed ((Failure.of cause).within s!"Failed to read {file}"))
  | .ok content =>
    match readSpec? (extension? file == some "toml") content with
    | some spec => return spec
    | none => throw (.failed (.of s!"Failed to parse {file}"))

/-- A handle on a dag, at an agent of its own if one is given. -/
def handleOn (c : Client) (dag : DagId) (f : Following) : Doing m Handle := do
  let h :=
    { Handle.new c dag with retryTimes := f.retryTimes, upgrade := f.upgrade, logTail := f.logTail }
  match f.agent with
  | none => return h
  | some agent =>
    match h.withAgent agent with
    | .ok h => return h
    | .error e => throw (.of e)

/-- An observer that prints milestones and is never told to hurry. -/
def observer (w : World m) : Observer m where
  toWire := w.toWire
  tell milestone := do
    match milestone.lines? with
    | some lines =>
      lines.forM w.say
      return true
    | none => return false
  isCancelled := return false
  raise := return ()
  rest := w.pause

def follow (w : World m) (h : Handle) : Doing m Unit := do
  match ← (h.watch (observer w) : m _) with
  | some (.ended (.ok _)) => return ()
  | some (.ended (.error e)) => throw (.of e)
  | some .stageOutOfRange | none => throw .broken

/-- Runs a command. -/
def Command.run (w : World m) (c : Client) : Command → Doing m Unit
  | .health => do
    let health ← call w c .health
    sayAll w [s!"{health.status} ({health.agent})"]
  | .operations => do sayAll w (operationLines (← call w c .operations))
  | .submit file isLeft following => do
    let spec ← loadSpec w file
    let d ← call w c (.submit spec)
    sayAll w [s!"Submitted '{d.name}' as {d.id}"]
    if !isLeft then follow w (← handleOn c d.id following)
  | .list => do sayAll w (dagListLines (← call w c .list))
  | .view dag => do sayAll w (dagLines (← call w c (.dag dag)))
  | .watch dag following => do follow w (← handleOn c dag following)
  | .steer operator dag isLeft following => do
    let h ← handleOn c dag following
    let d ← call w h.client (.operate dag operator)
    sayAll w [s!"{operator} accepted for '{d.name}'"]
    if !isLeft then follow w h
  | .cancel dag => do
    let d ← call w c (.operate dag .cancel)
    sayAll w [s!"'{d.name}' is {d.status}"]
  | .logs dag task tail => do sayAll w ((← call w c (.taskLogs dag task tail)).map LogEntry.text)
  | .events dag => do sayAll w (eventLines (← call w c (.events dag)))

/-- Runs a command at the agent that it goes to. -/
def Invocation.run (w : World m) (i : Invocation) : Doing m Unit := do
  match Client.build (some i.server) i.token Client.standardTimeoutMs .standard with
  | .ok c => i.command.run w c
  | .error e => throw (.failed (e.failure.within "Invalid client configuration"))

/-- How a program ended: its code, and what is said at the end. -/
structure Exit where
  code : Nat
  last : Option String
  deriving DecidableEq, Repr

/-- Runs the program with its arguments. -/
def program (w : World m) (environment : Named String) (arguments : List String) : m Exit := do
  match Invocation.read environment arguments with
  | .error (.help path) =>
    (helpLines path).forM w.say
    return ⟨0, none⟩
  | .error .version =>
    w.say versionLine
    return ⟨0, none⟩
  | .error .misuse => return ⟨2, none⟩
  | .ok i =>
    match ← (i.run w).run with
    | .ok () => return ⟨0, none⟩
    | .error t => return ⟨t.code, t.line?⟩

end Stagewise.Cli
