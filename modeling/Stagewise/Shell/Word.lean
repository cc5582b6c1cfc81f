import Stagewise.Text.Digits
/-!
# Words of shell commands

The text of a script is cut into words and marks. A word is made of parts, some of which stand for
something that is only known when the command runs: a variable, a sum, or the output of another
script.
-/

namespace Stagewise.Shell

/-- What a part of a word stands for. -/
inductive Piece where
  | literal (text : String)
  | valueOf (name : String)
  | outputOf (script : String)
  | sum (terms : String)
  deriving DecidableEq, Repr, Inhabited

/-- A part of a word; one in quotes is never cut at blanks. -/
structure Part where
  piece : Piece
  isQuoted : Bool
  deriving DecidableEq, Repr, Inhabited

abbrev Word := List Part

/-- The text of a word that stands for nothing but itself. -/
def plainText? (w : Word) : Option String :=
  w.foldlM (fun s p => match p with
    | ⟨.literal t, false⟩ => some (s ++ t)
    | _ => none) ""

/-- A word, or a mark between words; the end of a line is a semicolon. -/
inductive Token where
  | word (w : Word)
  | mark (text : String)
  deriving DecidableEq, Repr, Inhabited

def isNameChar (c : Char) : Bool := c.isAlphanum || c == '_'

def isMarkChar (c : Char) : Bool := [';', '&', '|', '<', '>', '(', ')', '\n'].contains c

def isBreak (c : Char) : Bool := c == ' ' || c == '\t' || isMarkChar c

/-- Characters that a backslash takes the meaning from inside double quotes. -/
def isEscapable (c : Char) : Bool := ['$', '\x60', '"', '\\'].contains c

/-- The characters up to the bracket that closes, and those behind it. -/
def insideBrackets (opening closing : Char) : (depth : Nat) → List Char → List Char × List Char
  | _, [] => ([], [])
  | depth, c :: rest =>
    if c = closing ∧ depth = 0 then ([], rest)
    else
      let depth := if c = closing then depth - 1 else if c = opening then depth + 1 else depth
      let (front, back) := insideBrackets opening closing depth rest
      (c :: front, back)

/-- What stands behind a dollar sign, and what follows it. -/
def afterDollar : List Char → Piece × List Char
  | '(' :: rest =>
    let (inner, rest) := insideBrackets '(' ')' 0 rest
    match inner with
    | '(' :: terms => (.sum (String.ofList terms.dropLast), rest)
    | script => (.outputOf (String.ofList script), rest)
  | '\x7b' :: rest =>
    let (name, rest) := insideBrackets '\x7b' '\x7d' 0 rest
    (.valueOf (String.ofList name), rest)
  | c :: rest =>
    if c.isDigit || ['?', '$', '#', '@', '*', '!'].contains c then (.valueOf c.toString, rest)
    else if isNameChar c then
      (.valueOf (String.ofList (c :: rest.takeWhile isNameChar)), rest.dropWhile isNameChar)
    else (.literal "$", c :: rest)
  | [] => (.literal "$", [])

/-- The characters up to a quote, and those behind it. -/
def upTo (quote : Char) (cs : List Char) : String × List Char :=
  (String.ofList (cs.takeWhile (· != quote)), (cs.dropWhile (· != quote)).drop 1)

/-- Reads a word, inside double quotes or not, and gives what follows it. -/
def readWord : (fuel : Nat) → (inside : Bool) → List Char → Word × List Char
  | 0, _, cs => ([], cs)
  | _ + 1, _, [] => ([], [])
  | fuel + 1, inside, c :: rest =>
    let add (piece : Piece) (isQuoted : Bool) (next : Bool) (rest : List Char) : Word × List Char :=
      let (w, rest) := readWord fuel next rest
      (⟨piece, isQuoted⟩ :: w, rest)
    if !inside && isBreak c then ([], c :: rest)
    else match c with
    | '"' => add (.literal "") true (!inside) rest
    | '$' =>
      let (piece, rest) := afterDollar rest
      add piece inside inside rest
    | '\x60' =>
      let (script, rest) := upTo '\x60' rest
      add (.outputOf script) inside inside rest
    | '\\' =>
      match rest with
      | [] => ([⟨.literal "\\", true⟩], [])
      | d :: rest =>
        if d = '\n' then readWord fuel inside rest
        else if inside && !isEscapable d then add (.literal (String.ofList ['\\', d]))
          true inside rest
        else add (.literal d.toString) true inside rest
    | '\'' =>
      if inside then add (.literal "'") true true rest
      else
        let (text, rest) := upTo '\'' rest
        add (.literal text) true false rest
    | c => add (.literal c.toString) inside inside rest

def pairMarks : List String := ["&&", "||", ">>", ">&"]

/-- Cuts a script into words and marks. A digit right before an arrow is a mark with a number sign
in front. -/
def tokens : (fuel : Nat) → List Char → List Token
  | 0, _ => []
  | _ + 1, [] => []
  | fuel + 1, c :: rest =>
    let pair := String.ofList (c :: rest.take 1)
    if c = '#' then tokens fuel (rest.dropWhile (· != '\n'))
    else if c = ' ' || c = '\t' then tokens fuel rest
    else if pairMarks.contains pair then .mark pair :: tokens fuel (rest.drop 1)
    else if isMarkChar c then .mark (if c = '\n' then ";" else c.toString) :: tokens fuel rest
    else if c.isDigit && (rest.head? == some '>' || rest.head? == some '<') then
      .mark ("#" ++ c.toString) :: tokens fuel rest
    else
      let (w, rest) := readWord (rest.length + 2) false (c :: rest)
      .word w :: tokens fuel rest

end Stagewise.Shell
