import Stagewise.Shell.Word
/-!
# Shell commands

A script is a list of commands: simple ones, and those that join, repeat or choose between others.
-/

namespace Stagewise.Shell

/-- Where a stream goes: into another one, or out of sight. -/
structure Redirect where
  stream : Nat
  isCopy : Bool
  target : Word
  deriving Repr, Inhabited

/-- A command. -/
inductive Command where
  | simple (words : List Word) (redirects : List Redirect)
  | list (commands : List Command)
  | both (first second : Command)
  | either (first second : Command)
  | pipe (source sink : Command)
  | negated (command : Command)
  | choice (test yes no : Command)
  | loop (ending : Bool) (test body : Command)
  | each (name : String) (items : List Word) (body : Command)
  | apart (command : Command)
  deriving Inhabited

def isKeyword (keyword : String) : List Token → Bool
  | .word w :: _ => plainText? w == some keyword
  | _ => false

def skipSemicolons : List Token → List Token := List.dropWhile fun t => t == .mark ";"

def Token.isWord : Token → Bool
  | .word _ => true
  | .mark _ => false

/-- Words and redirections of a simple command. -/
def readSimple : List Token → List Word × List Redirect × List Token
  | .mark m :: .mark arrow :: .word target :: rest =>
    if m.startsWith "#" then
      let (words, redirects, rest) := readSimple rest
      (words, ⟨((m.toList.drop 1).head?.getD '1').toNat - '0'.toNat, arrow == ">&", target⟩ ::
        redirects, rest)
    else ([], [], .mark m :: .mark arrow :: .word target :: rest)
  | .mark arrow :: .word target :: rest =>
    if [">", ">>", ">&", "<"].contains arrow then
      let (words, redirects, rest) := readSimple rest
      (words, ⟨if arrow == "<" then 0 else 1, arrow == ">&", target⟩ :: redirects, rest)
    else ([], [], .mark arrow :: .word target :: rest)
  | .word w :: rest =>
    let (words, redirects, rest) := readSimple rest
    (w :: words, redirects, rest)
  | rest => ([], [], rest)

mutual

/-- Commands up to one of the keywords, a closing bracket or the end. -/
def readList : (fuel : Nat) → (ends : List String) → List Token → List Command × List Token
  | 0, _, ts => ([], ts)
  | fuel + 1, ends, ts =>
    let ts := skipSemicolons ts
    if ts.isEmpty || ends.any (isKeyword · ts) || ts.head? == some (.mark ")") then ([], ts)
    else
      let (first, ts) := readPipe fuel ts
      let (command, ts) := readChain fuel first ts
      let (more, rest) := match ts with
        | .mark m :: rest => if m == ";" || m == "&" then readList fuel ends rest else ([], ts)
        | ts => ([], ts)
      (command :: more, rest)

/-- What is joined to a command by success or failure. -/
def readChain : (fuel : Nat) → Command → List Token → Command × List Token
  | 0, command, ts => (command, ts)
  | fuel + 1, command, ts =>
    match ts with
    | .mark "&&" :: rest =>
      let (next, rest) := readPipe fuel (skipSemicolons rest)
      readChain fuel (.both command next) rest
    | .mark "||" :: rest =>
      let (next, rest) := readPipe fuel (skipSemicolons rest)
      readChain fuel (.either command next) rest
    | ts => (command, ts)

/-- Commands that feed one another. -/
def readPipe : (fuel : Nat) → List Token → Command × List Token
  | 0, ts => (.list [], ts)
  | fuel + 1, ts =>
    if isKeyword "!" ts then
      let (command, ts) := readPipe fuel (ts.drop 1)
      (.negated command, ts)
    else
      let (command, ts) := readCommand fuel ts
      match ts with
      | .mark "|" :: rest =>
        let (sink, rest) := readPipe fuel (skipSemicolons rest)
        (.pipe command sink, rest)
      | ts => (command, ts)

/-- A choice behind its keyword. -/
def readChoice : (fuel : Nat) → List Token → Command × List Token
  | 0, ts => (.list [], ts)
  | fuel + 1, ts =>
    let (test, ts) := readList fuel ["then"] ts
    let (yes, ts) := readList fuel ["elif", "else", "fi"] (ts.drop 1)
    if isKeyword "elif" ts then
      let (no, ts) := readChoice fuel (ts.drop 1)
      (.choice (.list test) (.list yes) no, ts)
    else if isKeyword "else" ts then
      let (no, ts) := readList fuel ["fi"] (ts.drop 1)
      (.choice (.list test) (.list yes) (.list no), ts.drop 1)
    else (.choice (.list test) (.list yes) (.list []), ts.drop 1)

/-- One command. -/
def readCommand : (fuel : Nat) → List Token → Command × List Token
  | 0, ts => (.list [], ts)
  | fuel + 1, ts =>
    if ts.head? == some (.mark "(") then
      let (inner, ts) := readList fuel [] (ts.drop 1)
      (.apart (.list inner), ts.drop 1)
    else if isKeyword "if" ts then readChoice fuel (ts.drop 1)
    else if isKeyword "while" ts || isKeyword "until" ts then
      let (test, rest) := readList fuel ["do"] (ts.drop 1)
      let (body, rest) := readList fuel ["done"] (rest.drop 1)
      (.loop (isKeyword "until" ts) (.list test) (.list body), rest.drop 1)
    else if isKeyword "for" ts then
      let name := match ts.drop 1 with
        | .word w :: _ => (plainText? w).getD ""
        | _ => ""
      let ts := ts.drop 2
      let items := if isKeyword "in" ts then (ts.drop 1).takeWhile Token.isWord else []
      let ts := ts.drop (if isKeyword "in" ts then items.length + 1 else 0)
      let (body, ts) := readList fuel ["done"] ((skipSemicolons ts).drop 1)
      let words := items.filterMap fun
        | .word w => some w
        | .mark _ => none
      (.each name words (.list body), ts.drop 1)
    else if isKeyword "\x7b" ts then
      let (inner, ts) := readList fuel ["\x7d"] (ts.drop 1)
      (.list inner, ts.drop 1)
    else
      let (words, redirects, ts) := readSimple ts
      (.simple words redirects, ts)

end

def Command.ofScript (script : String) : Command :=
  let ts := tokens (script.length + 1) script.toList
  .list (readList (8 * ts.length + 8) [] ts).1

end Stagewise.Shell
