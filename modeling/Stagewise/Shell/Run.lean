import Stagewise.Operation.Builtin
import Stagewise.Shell.Command
import Stagewise.Shell.Format
/-!
# Running scripts

What a script does: what it writes to its streams and how it ends. There are no files, and no time
passes. A script that goes on for too long is left as it stands.
-/

namespace Stagewise.Shell

/-- Where a shell stands. What has been written is kept piece by piece, each with its stream. -/
structure State where
  values : Named String
  arguments : List String
  code : Nat := 0
  written : List (Nat × Bytes) := []
  input : Bytes := []
  ending : Option ProgramEnd := none
  deriving Repr, Inhabited

abbrev ShellM := StateM State

def write (stream : Nat) (bytes : Bytes) : ShellM Unit :=
  modify fun s => { s with written := s.written ++ [(stream, bytes)] }

def setCode (code : Nat) : ShellM Unit := modify fun s => { s with code }

def goesOn : ShellM Bool := return (← get).ending.isNone

/-- The name under which a shell knows its own process. -/
def ownProcess : String := "4242"

/-- Runs steps on their own and gives what they wrote. -/
def collected (steps : ShellM Unit) : ShellM (List (Nat × Bytes)) := do
  let before := (← get).written
  modify fun s => { s with written := [] }
  steps
  let pieces := (← get).written
  modify fun s => { s with written := before }
  return pieces

def bytesOn (stream : Nat) (pieces : List (Nat × Bytes)) : Bytes :=
  (pieces.filter fun p => p.1 == stream).flatMap (·.2)

def elsewhere (pieces : List (Nat × Bytes)) : List (Nat × Bytes) := pieces.filter fun p => p.1 != 1

/-- What a variable stands for. -/
def valueOf (name : String) (s : State) : String :=
  let given (name : String) : String := (s.values.get? name).getD ""
  match name with
  | "?" => toString s.code
  | "$" => ownProcess
  | "#" => toString (s.arguments.length - 1)
  | "@" | "*" => " ".intercalate (s.arguments.drop 1)
  | name =>
    match Text.natOfDigits? name.toList, name.splitOn ":-" with
    | some n, _ => s.arguments[n]?.getD ""
    | none, [name, fallback] => if (given name).isEmpty then fallback else given name
    | none, _ => given name

/-- The whole numbers from one to another, a step apart. -/
def countFrom (step last : Int) : (fuel : Nat) → Int → List Int
  | 0, _ => []
  | fuel + 1, n =>
    if (0 < step && n ≤ last) || (step < 0 && last ≤ n) then n ::
      countFrom step last fuel (n + step) else []

/-- The numbers that `seq` counts. -/
def sequence : List String → List Int
  | [last] => countFrom 1 (number last) 100000 1
  | [first, last] => countFrom 1 (number last) 100000 (number first)
  | [first, step, last] => countFrom (number step) (number last) 100000 (number first)
  | _ => []

def State.exitCode (s : State) : Nat :=
  match s.ending with
  | some (.exited n) => n.toNat
  | some _ => 137
  | none => s.code

/-- Commands that need no other command. Inside a shell, `echo` knows backslashes. -/
def simpleCommand (inShell : Bool) (name : String) (arguments : List String) : ShellM Unit := do
  setCode 0
  match name with
  | ":" | "true" | "sleep" | "wait" | "export" | "set" | "trap" => return ()
  | "false" => setCode 1
  | "echo" =>
    let isLine := arguments.head? != some "-n"
    let text := " ".intercalate (if isLine then arguments else arguments.drop 1)
    let (bytes, whole) :=
      if inShell then echoed (text.length + 1) text.toList else (Http.bytesOf text, true)
    write 1 (if isLine && whole then bytes ++ [10] else bytes)
  | "printf" =>
    write 1 (formatted (arguments.length + 1) (arguments.headD "").toList (arguments.drop 1))
  | "seq" => for n in sequence arguments do write 1 (Http.bytesOf (Text.ofInt n ++ "\n"))
  | "cat" =>
    if arguments.isEmpty then write 1 (← get).input
    else
      for file in arguments do
        if file != "/dev/null" then
          write 2 (Http.bytesOf s!"cat: {file}: No such file or directory\n")
          setCode 1
  | "head" | "tail" =>
    let count :=
      (arguments.filterMap fun a => Text.natOfDigits? (a.toList.filter Char.isDigit)).head?.getD 10
    let lines := byteLines (← get).input
    for line in if name == "head" then lines.take count else lines.drop (lines.length - count) do
      write 1 (line ++ [10])
  | "wc" => write 1 (Http.bytesOf (toString (byteLines (← get).input).length ++ "\n"))
  | "test" => setCode (if holds arguments then 0 else 1)
  | "[" => setCode (if holds arguments.dropLast then 0 else 1)
  | "read" =>
    match byteLines (← get).input with
    | [] => setCode 1
    | line :: rest => modify fun s =>
      { s with input := rest.flatMap (· ++ [10]),
               values := s.values.insert (arguments.headD "REPLY") (Http.lossyText line) }
  | "exit" => modify fun s =>
    let code : Int := match arguments with
      | [] => s.code
      | a :: _ => number a % 256
    { s with ending := some (.exited code) }
  | "kill" =>
    if arguments.contains ownProcess then modify fun s => { s with ending := some .killed }
  | "shift" => modify fun s => { s with arguments := s.arguments.take 1 ++ s.arguments.drop 2 }
  | _ =>
    write 2 (Http.bytesOf s!"sh: 1: {name}: not found\n")
    setCode 127

def shellNames : List String := ["sh", "/bin/sh", "dash", "/bin/dash", "bash", "/bin/bash"]

mutual

/-- What a piece of a word stands for. -/
def pieceText : (fuel : Nat) → Piece → ShellM String
  | 0, _ => return ""
  | _ + 1, .literal text => return text
  | _ + 1, .valueOf name => return valueOf name (← get)
  | _ + 1, .sum terms => do
    let s ← get
    let cs := terms.toList.filter (· != ' ')
    return Text.ofInt (arithmetic (fun name => number (valueOf name s)) (cs.length + 1) cs)
  | fuel + 1, .outputOf script => do
    let saved ← get
    let pieces ← collected (run fuel (.ofScript script))
    let code := (← get).exitCode
    set { saved with written := saved.written ++ elsewhere pieces, code }
    let cs := (Http.lossyText (bytesOn 1 pieces)).toList
    return String.ofList (cs.reverse.dropWhile (· == '\n')).reverse

/-- The words that a word comes to. -/
def expanded : (fuel : Nat) → Word → ShellM (List String)
  | 0, _ => return []
  | fuel + 1, word => do
    let mut done : List String := []
    let mut current : Option String := none
    for part in word do
      let text ← pieceText fuel part.piece
      let isWhole := part.isQuoted || (match part.piece with
        | .literal _ => true
        | _ => false)
      if part.isQuoted && part.piece == .valueOf "@" then
        let arguments := (← get).arguments.drop 1
        match arguments.getLast? with
        | some last =>
          done := done ++ arguments.dropLast
          current := some (current.getD "" ++ last)
        | none => pure ()
      else if isWhole then current := some (current.getD "" ++ text)
      else
        let blanks := text.map fun c => if c == '\n' || c == '\t' then ' ' else c
        match (blanks.splitOn " ").filter (!·.isEmpty) with
        | [] => pure ()
        | first :: rest =>
          current := some (current.getD "" ++ first)
          for piece in rest do
            done := done ++ current.toList
            current := some piece
    return done ++ current.toList

/-- Runs a program or a command of the shell. -/
def runNamed :
    (fuel : Nat) → (inShell : Bool) → (name : String) → (arguments : List String) → ShellM Unit
  | 0, _, _, _ => return ()
  | fuel + 1, inShell, name, arguments => do
    if shellNames.contains name then
      match arguments.dropWhile (· == "-e") with
      | "-c" :: script :: rest =>
        let saved ← get
        set { saved with arguments := if rest.isEmpty then [name] else rest, code := 0 }
        run fuel (.ofScript script)
        let s ← get
        if inShell then set { saved with written := s.written, code := s.exitCode }
      | _ => setCode 0
    else simpleCommand inShell name arguments

/-- Runs a command. -/
def run : (fuel : Nat) → Command → ShellM Unit
  | 0, _ => return ()
  | fuel + 1, .list commands => commands.forM fun command => do
    if ← goesOn then run fuel command
  | fuel + 1, .both first second => do
    run fuel first
    if (← goesOn) && (← get).code == 0 then run fuel second
  | fuel + 1, .either first second => do
    run fuel first
    if (← goesOn) && (← get).code != 0 then run fuel second
  | fuel + 1, .negated command => do
    run fuel command
    modify fun s => { s with code := if s.code == 0 then 1 else 0 }
  | fuel + 1, .pipe source sink => do
    let pieces ← collected (run fuel (.apart source))
    modify fun s => { s with written := s.written ++ elsewhere pieces, input := bytesOn 1 pieces }
    run fuel (.apart sink)
    modify fun s => { s with input := [] }
  | fuel + 1, .choice test yes no => do
    run fuel test
    if ← goesOn then
      if (← get).code == 0 then run fuel yes
      else
        setCode 0
        run fuel no
  | fuel + 1, .loop ending test body => do
    run fuel test
    if ← goesOn then
      if ((← get).code == 0) != ending then
        run fuel body
        if ← goesOn then run fuel (.loop ending test body)
      else setCode 0
  | fuel + 1, .each name items body => do
    let values ← items.mapM (expanded fuel)
    values.flatten.forM fun value => do
      if ← goesOn then
        modify fun s => { s with values := s.values.insert name value }
        run fuel body
  | fuel + 1, .apart command => do
    let saved ← get
    run fuel command
    let s ← get
    let ending := if s.ending == some .killed then s.ending else none
    set { saved with written := s.written, code := s.exitCode, ending }
  | fuel + 1, .simple words redirects => do
    let arguments := (← words.mapM (expanded fuel)).flatten
    let targets ← redirects.mapM fun r => do
      return (r, " ".intercalate (← expanded fuel r.target))
    let pieces ← collected (match arguments with
      | [] => return ()
      | name :: rest => do
        let key := String.ofList (name.toList.takeWhile isNameChar)
        let value := name.toList.drop key.length
        if rest.isEmpty && value.head? == some '=' then
          modify fun s =>
            { s with values := s.values.insert key (String.ofList (value.drop 1)), code := 0 }
        else runNamed fuel true name rest)
    let sent :=
      targets.foldl
      (fun pieces ((r, target) : Redirect × String) => pieces.filterMap fun (p : Nat × Bytes) =>
      if p.1 != r.stream then some p
      else if r.isCopy then some ((Text.natOfDigits? target.toList).getD p.1, p.2)
      else none) pieces
    modify fun s => { s with written := s.written ++ sent }

end

/-- The lines that were written, in the order in which they became whole, without carriage returns
at their ends. -/
def writtenLines (written : List (Nat × Bytes)) : List Bytes :=
  let step (acc : List Bytes × Named Bytes) (p : Nat × Bytes) : List Bytes × Named Bytes :=
    let key := toString p.1
    p.2.foldl (fun (acc : List Bytes × Named Bytes) b =>
      let line := (acc.2.get? key).getD []
      if b == 10 then
        (acc.1 ++ [if line.getLast? == some 13 then line.dropLast else line],
          acc.2.insert key [])
      else (acc.1, acc.2.insert key (line ++ [b]))) acc
  let (lines, unfinished) := written.foldl step ([], .empty)
  lines ++ (unfinished.rows.map (·.2)).filter (!·.isEmpty)

def programs : List String :=
  ["sh", "dash", "bash", "echo", "true", "false", "printf", "seq", "cat", "sleep", "head", "tail",
   "wc", "test", "["]

/-- The name of a program without the directory that it is in. -/
def programName (command : String) : String :=
  match ["/bin/", "/usr/bin/"].find? (command.startsWith ·) with
  | some directory => String.ofList (command.toList.drop directory.length)
  | none => command

def patience : Nat := 100000

/-- A machine with a shell and a few small programs. -/
def machine : Machine := fun command arguments =>
  if command.endsWith "/" then .refused "Permission denied (os error 13)"
  else if !programs.contains (programName command) then .refused
    "No such file or directory (os error 2)"
  else
    let start : State := { values := .empty, arguments := [command] }
    let (_, s) := (runNamed patience false (programName command) arguments).run start
    let lines := writtenLines s.written
    let texts := (lines.map Http.textOfBytes?).takeWhile Option.isSome
    .ran ((texts.filterMap id).map (0, ·))
      (some (0, if texts.length < lines.length then .garbled else s.ending.getD (.exited s.code)))

end Stagewise.Shell
