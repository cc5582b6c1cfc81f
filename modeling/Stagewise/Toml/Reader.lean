import Stagewise.Toml.Scalar
import Stagewise.Toml.Table
/-!
# Reading configuration files

A file is a list of lines: keys with values, headers of tables, comments and empty lines. It is read
into the document that holds the same values.
-/

namespace Stagewise.Toml

def isKeyChar (c : Char) : Bool := c.isAlphanum || c == '-' || c == '_'

def takeKeyPart? (cs : List Char) : Option (String × List Char) :=
  match cs with
  | '"' :: _ | '\'' :: _ => takeLine? cs
  | cs =>
    let name := cs.takeWhile isKeyChar
    if name.isEmpty then none else some (String.ofList name, cs.drop name.length)

/-- The parts of a key behind its first, and what follows the blanks behind them. -/
def takeKeyRest? : (fuel : Nat) → List Char → Option (List String × List Char)
  | 0, _ => none
  | fuel + 1, cs =>
    match dropBlanks cs with
    | '.' :: rest => do
      let (part, rest) ← takeKeyPart? (dropBlanks rest)
      let (parts, rest) ← takeKeyRest? fuel rest
      return (part :: parts, rest)
    | rest => some ([], rest)

/-- A key: the parts before its last one, the last one, and what follows the blanks behind it. -/
def takeKey? (cs : List Char) : Option (List String × String × List Char) := do
  let (first, rest) ← takeKeyPart? (dropBlanks cs)
  let (others, rest) ← takeKeyRest? (rest.length + 1) rest
  let parts := first :: others
  return (parts.dropLast, others.getLastD first, rest)

/-- What follows blanks, comments and ends of lines. A comment goes on to the end of its line. -/
def dropFiller? : (fuel : Nat) → List Char → Option (List Char)
  | 0, _ => none
  | fuel + 1, cs =>
    match dropSpace cs with
    | '#' :: rest => do
      let rest ← takeBreak? (rest.dropWhile isPlain)
      dropFiller? fuel rest
    | rest => some rest

def skipFiller? (cs : List Char) : Option (List Char) := dropFiller? (cs.length + 1) cs

/-- The items of a list up to its closing bracket; the last one may have a comma behind it. -/
def takeItems? (item : List Char → Option (Json × List Char)) :
    (fuel : Nat) → List Char → Option (List Json × List Char)
  | 0, _ => none
  | fuel + 1, cs => do
    match ← skipFiller? cs with
    | ']' :: rest => return ([], rest)
    | cs =>
      let (j, rest) ← item cs
      match ← skipFiller? rest with
      | ']' :: rest => return ([j], rest)
      | ',' :: rest =>
        let (js, rest) ← takeItems? item fuel rest
        return (j :: js, rest)
      | _ => none

/-- A key with its value, put into the table at hand. -/
def takePair? (item : List Char → Option (Json × List Char)) (members : Members) (cs : List Char) :
    Option (Members × List Char) := do
  let (path, key, rest) ← takeKey? cs
  let rest ← takeMark? '=' rest
  let (j, rest) ← item (dropBlanks rest)
  let members ← members.define? path key j false
  return (members, dropBlanks rest)

/-- The pairs of a table that stands in one line, up to its closing brace. -/
def takePairs? (item : List Char → Option (Json × List Char)) :
    (fuel : Nat) → Members → List Char → Option (Members × List Char)
  | 0, _, _ => none
  | fuel + 1, members, cs => do
    let (members, rest) ← takePair? item members cs
    match rest with
    | '\x7d' :: rest => return (members, rest)
    | ',' :: rest => takePairs? item fuel members rest
    | _ => none

/-- A value. Lists and tables may be nested at most so deep. -/
def takeValue? : (depth : Nat) → List Char → Option (Json × List Char)
  | 0, _ => none
  | depth + 1, '[' :: rest =>
    if depth = 0 then none
    else (takeItems? (takeValue? depth) (rest.length + 1) rest).map fun (js, rest) =>
      (.list js, rest)
  | depth + 1, '\x7b' :: rest =>
    if depth = 0 then none
    else
      match dropBlanks rest with
      | '\x7d' :: rest => some (.object [], rest)
      | cs => (takePairs? (takeValue? depth) (cs.length + 1) [] cs).map fun (ms, rest) =>
        (.object (Item.membersJson ms), rest)
  | _ + 1, cs => takeScalar? cs

/-- The deepest nesting of a scalar value. -/
def depthLimit : Nat := 80

/-- What is left of a line: blanks and a comment. -/
def takeLineEnd? (cs : List Char) : Option (List Char) :=
  let rest := match dropBlanks cs with
    | '#' :: rest => rest.dropWhile isPlain
    | rest => rest
  match rest with
  | [] => some []
  | rest => takeBreak? rest

/-- What the lines so far come to: the whole file, and the table that is added to. -/
structure Reading where
  root : Members
  path : List String
  deriving Inhabited

/-- The header of a table or of one more table of a list. -/
def takeHeader? (r : Reading) (cs : List Char) : Option (Reading × List Char) :=
  match cs with
  | '[' :: '[' :: rest => do
    let (path, key, rest) ← takeKey? rest
    let rest ← takeMark? ']' rest
    let rest ← takeMark? ']' rest
    let root ← r.root.beginItem? path key
    return (⟨root, path ++ [key]⟩, rest)
  | '[' :: rest => do
    let (path, key, rest) ← takeKey? rest
    let rest ← takeMark? ']' rest
    let root ← r.root.beginTable? path key
    return (⟨root, path ++ [key]⟩, rest)
  | _ => none

/-- A key with its value, put into the table that is added to. -/
def takeEntry? (r : Reading) (cs : List Char) : Option (Reading × List Char) := do
  let (path, key, rest) ← takeKey? cs
  let rest ← takeMark? '=' rest
  let (j, rest) ← takeValue? depthLimit (dropBlanks rest)
  let root ← r.root.change? false (fun isDotted members => members.define? path key j isDotted)
    r.path false
  return (⟨root, r.path⟩, rest)

/-- Line after line to the end of the file. -/
def takeLines? : (fuel : Nat) → Reading → List Char → Option Reading
  | 0, r, cs => if cs.isEmpty then some r else none
  | fuel + 1, r, cs =>
    match dropBlanks cs with
    | [] => some r
    | '[' :: rest => do
      let (r, rest) ← takeHeader? r ('[' :: rest)
      takeLines? fuel r (← takeLineEnd? rest)
    | c :: rest =>
      if c = '#' ∨ c = '\n' ∨ c = '\r' then do takeLines? fuel r (← takeLineEnd? (c :: rest))
      else do
        let (r, rest) ← takeEntry? r (c :: rest)
        takeLines? fuel r (← takeLineEnd? rest)

/-- Reads a file as a document. A byte order mark in front is skipped. -/
def read? (s : String) : Option Json := do
  let cs := match s.toList with
    | '\ufeff' :: rest => rest
    | cs => cs
  let r ← takeLines? (cs.length + 1) ⟨[], []⟩ cs
  return .object (Item.membersJson r.root)

end Stagewise.Toml
