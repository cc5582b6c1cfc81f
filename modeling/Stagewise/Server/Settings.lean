import Stagewise.Agent
import Stagewise.Error
import Stagewise.Toml.Reader
/-!
# Settings of an agent

What an agent is told at its start: the address it acts under, the names of its files below its data
directory, the shared token, and how long it waits for another agent. Every setting has a value of
its own when it is not given.
-/

namespace Stagewise.Server

/-- The address under which an agent acts. -/
structure IdentitySettings where
  ip : String := "127.0.0.1"
  port : UInt16 := 2886
  deriving DecidableEq, Repr, Inhabited

/-- The names of the files of an agent. -/
structure StorageSettings where
  dagDb : String := "dags.redb"
  eventLogDir : String := "events"
  deriving DecidableEq, Repr, Inhabited

/-- The shared token; without one, every request may pass. -/
structure AuthSettings where
  token : Option String := none
  deriving DecidableEq, Repr, Inhabited

/-- How long a task may run on another agent, in seconds. -/
structure DispatchSettings where
  timeoutSecs : Nat := 3600
  deriving DecidableEq, Repr, Inhabited

/-- The settings of an agent. -/
structure Settings where
  agent : IdentitySettings := {}
  storage : StorageSettings := {}
  auth : AuthSettings := {}
  dispatch : DispatchSettings := {}
  deriving DecidableEq, Repr, Inhabited

instance : Document IdentitySettings where
  toJson s := .object [("ip", .text s.ip), ("port", .int s.port.toNat)]
  ofJson := Decode.record "AgentConfig" ["ip", "port"] fun g => do
    let ip ← g.withDefault "ip" Decode.text "127.0.0.1"
    let port ← g.withDefault "port" (Decode.unsigned 16) 2886
    return { ip, port := UInt16.ofNat port }

instance : Document StorageSettings where
  toJson s := .object [("dag_db", .text s.dagDb), ("event_log_dir", .text s.eventLogDir)]
  ofJson := Decode.record "StorageConfig" ["dag_db", "event_log_dir"] fun g => do
    let dagDb ← g.withDefault "dag_db" Decode.text "dags.redb"
    let eventLogDir ← g.withDefault "event_log_dir" Decode.text "events"
    return { dagDb, eventLogDir }

instance : Document AuthSettings where
  toJson s := .object [("token", Json.ofOption .text s.token)]
  ofJson := Decode.record "AuthConfig" ["token"] fun g => do
    let token ← g.withDefault "token" (Decode.optional Decode.text) none
    return { token }

instance : Document DispatchSettings where
  toJson s := .object [("timeout_secs", .int s.timeoutSecs)]
  ofJson := Decode.record "DispatchConfig" ["timeout_secs"] fun g => do
    let timeoutSecs ← g.withDefault "timeout_secs" (Decode.unsigned 64) 3600
    return { timeoutSecs }

namespace Settings

instance : Document Settings where
  toJson s :=
    .object [("agent", toJson s.agent), ("storage", toJson s.storage), ("auth", toJson s.auth),
      ("dispatch", toJson s.dispatch)]
  ofJson := Decode.record "ServerConfig" ["agent", "storage", "auth", "dispatch"] fun g => do
    let agent ← g.withDefault "agent" Document.ofJson {}
    let storage ← g.withDefault "storage" Document.ofJson {}
    let auth ← g.withDefault "auth" Document.ofJson {}
    let dispatch ← g.withDefault "dispatch" Document.ofJson {}
    return { agent, storage, auth, dispatch }

/-- The settings in the file of that content; without a file, every setting has its own value. -/
def load : (content : Option String) → Except Failure Settings
  | none => .ok {}
  | some content =>
    match (Toml.read? content).bind fun j => (Document.ofJson j : Decoded Settings).toOption with
    | some settings => .ok settings
    | none => .error (.of "Failed to parse configuration file")

def identity (s : Settings) : Agent := ⟨s.agent.ip, s.agent.port⟩

/-- A name below a directory; a name that starts with a slash stands for itself. -/
def below (directory name : String) : String :=
  if name.startsWith "/" then name
  else if directory.endsWith "/" then directory ++ name
  else directory ++ "/" ++ name

def dagDbPath (s : Settings) (dataDir : String) : String := below dataDir s.storage.dagDb

def eventLogPath (s : Settings) (dataDir : String) : String := below dataDir s.storage.eventLogDir

end Settings

end Stagewise.Server
