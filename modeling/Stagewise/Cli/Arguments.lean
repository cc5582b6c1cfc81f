import Stagewise.Cli.Form
/-!
# Arguments

How the arguments of the command line are read, one after another. Every option is given at most
once at its place, except switches that only count; of an option that may be given everywhere, the
innermost one holds. A question for help is answered as soon as it is read, before what follows it
can be wrong.
-/

namespace Stagewise.Cli

/-- What the command line asks for other than a command. -/
inductive Halt where
  | help (path : List String)
  | version
  | misuse
  deriving DecidableEq, Repr

/-- What has been read: the path of the command, the options given at this place and those given
outside of it, the words, the option whose value comes next, and whether only words follow. `names`
holds the words behind `help`. -/
structure Reading where
  path : List String := []
  here : List (String × String) := []
  outside : List (String × String) := []
  words : List String := []
  awaiting : Option OptionForm := none
  isTrailing : Bool := false
  names : Option (List String) := none

namespace Reading

def form (r : Reading) : Form := (Form.ofPath? r.path).getD { about := "" }

def option? (r : Reading) (name : String) : Option OptionForm :=
  (r.form.options ++ commonOptions).find? (·.name == name)

/-- Notes an option; one that has been given here before is a misuse. -/
def give (r : Reading) (name value : String) : Except Halt Reading :=
  if (r.here.lookup name).isSome && name != "verbose" then .error .misuse
  else .ok { r with here := (name, value) :: r.here, awaiting := none }

def giveValue (r : Reading) (o : OptionForm) (value : String) : Except Halt Reading :=
  if o.accepts.all (· value) then r.give o.name value else .error .misuse

/-- Reads an option by its name, with a value behind an equals sign or without one. -/
def readLong (r : Reading) (name : String) (value : Option String) : Except Halt Reading :=
  match name, value, r.path with
  | "help", none, _ => .error (.help r.path)
  | "version", none, [] => .error .version
  | name, value, _ =>
    match r.option? name, value with
    | none, _ => .error .misuse
    | some ⟨name, none, _⟩, none => r.give name ""
    | some ⟨_, none, _⟩, some _ => .error .misuse
    | some o, some value => r.giveValue o value
    | some o, none =>
      if (r.here.lookup name).isSome then .error .misuse else .ok { r with awaiting := some o }

def readShort (r : Reading) : List Char → Except Halt Reading
  | [] => .ok r
  | 'v' :: rest => do readShort (← r.give "verbose" "") rest
  | 'h' :: _ => .error (.help r.path)
  | 'V' :: _ => .error (if r.path.isEmpty then .version else .misuse)
  | _ => .error .misuse

def readWord (r : Reading) (word : String) : Except Halt Reading :=
  match r.form.words[r.words.length]? with
  | some w => if w.accepts word then .ok { r with words := r.words ++ [word] } else .error .misuse
  | none => .error .misuse

def descend (r : Reading) (member : String) : Reading :=
  { path := r.path ++ [member], outside := r.here ++ r.outside }

/-- Reads one more name behind `help`. -/
def readName (r : Reading) (names : List String) (name : String) : Except Halt Reading :=
  let members := ((Form.ofPath? (r.path ++ names)).map (·.members)).getD []
  if members.contains name || (name == "help" && !members.isEmpty) then
    .ok { r with names := some (names ++ [name]) }
  else .error .misuse

/-- Reads one argument. -/
def read (r : Reading) (argument : String) : Except Halt Reading :=
  let cs := argument.toList
  match r.names, r.awaiting with
  | some names, _ => r.readName names argument
  | none, some o =>
    if argument.startsWith "-" && argument != "-" then .error .misuse else r.giveValue o argument
  | none, none =>
    if r.isTrailing then r.readWord argument
    else if r.form.members.contains argument then .ok (r.descend argument)
    else if r.form.isGroup && argument == "help" then .ok { r with names := some [] }
    else if argument == "--" then .ok { r with isTrailing := true }
    else
      match cs with
      | '-' :: '-' :: name =>
        let front := name.takeWhile (· != '=')
        let value := match name.drop front.length with
          | _ :: value => some (String.ofList value)
          | [] => none
        r.readLong (String.ofList front) value
      | '-' :: c :: rest => r.readShort (c :: rest)
      | _ => r.readWord argument

/-- What is read when nothing follows: a command needs all of its words, and a group one of its
members. -/
def finish (r : Reading) : Except Halt Reading :=
  match r.names with
  | some names => .error (.help (r.path ++ names))
  | none =>
    if r.awaiting.isSome || r.form.isGroup || r.words.length < r.form.words.length then
      .error .misuse
    else .ok r

/-- The value of an option, the innermost one. -/
def value? (r : Reading) (name : String) : Option String := (r.here ++ r.outside).lookup name

def isOn (r : Reading) (name : String) : Bool := (r.value? name).isSome

def following (r : Reading) : Following where
  agent := (r.value? "agent").bind Agent.parse?
  upgrade := r.isOn "upgrade"
  retryTimes := ((r.value? "retry-times").bind count32?).getD 3
  logTail := ((r.value? "log-tail").bind count64?).getD 20

/-- The command that is read. -/
def command? (r : Reading) : Option Command :=
  let isLeft := r.isOn "no-watch"
  let dag : Option DagId := r.words.head?.bind DagId.parse?
  let steer (operator : Operator) : Option Command :=
    dag.map fun d => .steer operator d isLeft r.following
  match r.path with
  | ["health"] => some .health
  | ["operations"] => some .operations
  | ["dag", "submit"] => r.words.head?.map fun file => .submit file isLeft r.following
  | ["dag", "list"] => some .list
  | ["dag", "show"] => dag.map .view
  | ["dag", "watch"] => dag.map fun d => .watch d r.following
  | ["dag", "retry"] => steer .retry
  | ["dag", "pass"] => steer .pass
  | ["dag", "rollback"] => steer .rollback
  | ["dag", "cancel"] => dag.map .cancel
  | ["dag", "logs"] => do
    let d ← dag
    let task ← (r.words[1]?).bind TaskId.parse?
    return .logs d task ((r.value? "tail").bind count64?)
  | ["dag", "events"] => dag.map .events
  | _ => none

end Reading

def standardServer : String := "http://127.0.0.1:2886"

/-- What the arguments ask for. Address and token may also stand in the environment. -/
def Invocation.read (environment : Named String) (arguments : List String) :
    Except Halt Invocation := do
  let r ← arguments.foldlM Reading.read {}
  let r ← r.finish
  match r.command? with
  | none => throw .misuse
  | some command =>
    return {
      server := (r.value? "server" <|> environment.get? "SHOAL_SERVER").getD standardServer,
      token := r.value? "token" <|> environment.get? "SHOAL_TOKEN", command }

def programName : String := "shoal"

def versionLine : String := programName ++ " 0.1.0"

/-- A name with dashes in front, and the value behind it if it takes one. -/
def optionUsage (o : OptionForm) : String :=
  if o.accepts.isSome then "  --" ++ o.name ++ " <" ++ o.name.toUpper.replace "-" "_" ++ ">"
  else "  --" ++ o.name

/-- What is told about a command or group. -/
def helpLines (path : List String) : List String :=
  let form :=
    (Form.ofPath? path).getD
      { about := "Print this message or the help of the given subcommand(s)" }
  let rest := if form.isGroup then ["<COMMAND>"] else form.words.map fun w => s!"<{w.name}>"
  let members := form.members.map fun name =>
    "  " ++ name ++ "  " ++ ((Form.ofPath? (path ++ [name])).map (·.about)).getD ""
  let options := (form.options ++ commonOptions).map fun o => optionUsage o ++ "  " ++ o.about
  [form.about, "", "Usage: " ++ " ".intercalate (programName :: path ++ "[OPTIONS]" :: rest)] ++
    (if members.isEmpty then [] else ["", "Commands:"] ++ members) ++ ["", "Options:"] ++ options

end Stagewise.Cli
