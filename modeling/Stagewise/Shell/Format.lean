import Stagewise.Http.Percent
/-!
# Formats and tests

The texts that `printf` and `echo` make of their arguments, and what `test` makes of them.
-/

namespace Stagewise.Shell

abbrev Bytes := List UInt8

def isOctal (c : Char) : Bool := '0' ≤ c && c ≤ '7'

def octalByte (digits : List Char) : UInt8 :=
  UInt8.ofNat (digits.foldl (fun n d => 8 * n + (d.toNat - '0'.toNat)) 0)

/-- Characters with a backslash in front that stand for one byte. -/
def escapedBytes : List (Char × UInt8) :=
  [('n', 10), ('t', 9), ('r', 13), ('a', 7), ('b', 8), ('f', 12), ('v', 11), ('\\', 92)]

/-- What stands behind a backslash: its bytes, and how many characters it takes. -/
def escape (zeroFirst : Bool) (c : Char) (rest : List Char) : Bytes × Nat :=
  match escapedBytes.lookup c with
  | some b => ([b], 1)
  | none =>
    if zeroFirst && c == '0' then
      let digits := (rest.take 3).takeWhile isOctal
      ([octalByte digits], digits.length + 1)
    else if !zeroFirst && isOctal c then
      let digits := ((c :: rest).take 3).takeWhile isOctal
      ([octalByte digits], digits.length)
    else (Http.bytesOf (String.ofList ['\\', c]), 1)

/-- The text that `echo` writes, and whether it goes on behind it. -/
def echoed : (fuel : Nat) → List Char → Bytes × Bool
  | 0, _ => ([], true)
  | _ + 1, [] => ([], true)
  | _ + 1, '\\' :: 'c' :: _ => ([], false)
  | fuel + 1, '\\' :: c :: rest =>
    let (bytes, length) := escape true c rest
    let (more, whole) := echoed fuel ((c :: rest).drop length)
    (bytes ++ more, whole)
  | fuel + 1, c :: rest =>
    let (more, whole) := echoed fuel rest
    (Http.bytesOf c.toString ++ more, whole)

/-- A text widened to a width, on the left unless a minus sign stands first, with zeros if one
does. -/
def widened (flags : List Char) (text : String) : String :=
  let width := (Text.natOfDigits? (flags.filter Char.isDigit)).getD 0
  let fill :=
    String.ofList
    (List.replicate (width - text.length) (if flags.head? == some '0' then '0' else ' '))
  if flags.head? == some '-' then text ++ fill else fill ++ text

/-- A format with its arguments put in once, and the arguments that are left. -/
def formatOnce :
    (fuel : Nat) → (format : List Char) → (arguments : List String) → Bytes × List String
  | 0, _, arguments => ([], arguments)
  | _ + 1, [], arguments => ([], arguments)
  | fuel + 1, '%' :: '%' :: rest, arguments =>
    let (more, arguments) := formatOnce fuel rest arguments
    (37 :: more, arguments)
  | fuel + 1, '%' :: rest, arguments =>
    let flags := rest.takeWhile fun c => c.isDigit || c == '-' || c == '.'
    let isNumber := match (rest.drop flags.length).head? with
      | some c => c == 'd' || c == 'i'
      | none => false
    let argument := arguments.headD ""
    let text := widened flags (if isNumber && argument.isEmpty then "0" else argument)
    let (more, arguments) := formatOnce fuel (rest.drop (flags.length + 1)) (arguments.drop 1)
    (Http.bytesOf text ++ more, arguments)
  | fuel + 1, '\\' :: c :: rest, arguments =>
    let (bytes, length) := escape false c rest
    let (more, arguments) := formatOnce fuel ((c :: rest).drop length) arguments
    (bytes ++ more, arguments)
  | fuel + 1, c :: rest, arguments =>
    let (more, arguments) := formatOnce fuel rest arguments
    (Http.bytesOf c.toString ++ more, arguments)

/-- A format used again and again until no argument is left. -/
def formatted : (fuel : Nat) → (format : List Char) → (arguments : List String) → Bytes
  | 0, _, _ => []
  | fuel + 1, format, arguments =>
    let (bytes, rest) := formatOnce (format.length + 1) format arguments
    if rest.isEmpty || rest.length == arguments.length then bytes
      else bytes ++ formatted fuel format rest

/-- The number that a text stands for, zero if it stands for none. -/
def number (s : String) : Int := s.toInt?.getD 0

/-- What a test of its arguments comes to. -/
def holds : List String → Bool
  | ["!", a] => a.isEmpty
  | ["!", a, "=", b] => a != b
  | [a] => !a.isEmpty
  | ["-n", a] => !a.isEmpty
  | ["-z", a] => a.isEmpty
  | [a, "=", b] => a == b
  | [a, "!=", b] => a != b
  | [a, "-eq", b] => number a == number b
  | [a, "-ne", b] => number a != number b
  | [a, "-lt", b] => number a < number b
  | [a, "-le", b] => number a ≤ number b
  | [a, "-gt", b] => number b < number a
  | [a, "-ge", b] => number b ≤ number a
  | _ => false

/-- The characters before the last operator of a kind, the operator, and the characters behind
it. -/
def splitOperator (operators : List Char) (cs : List Char) :
    Option (List Char × Char × List Char) :=
  let behind := (cs.reverse.takeWhile fun c => !operators.contains c).reverse
  match cs.reverse.drop behind.length with
  | operator :: before => if before.isEmpty then none else some (before.reverse, operator, behind)
  | [] => none

/-- The value of sums, differences, products, quotients and remainders without brackets. -/
def arithmetic (value : String → Int) : (fuel : Nat) → List Char → Int
  | 0, _ => 0
  | fuel + 1, cs =>
    match splitOperator ['+', '-'] cs with
    | some (a, o, b) =>
      let (x, y) := (arithmetic value fuel a, arithmetic value fuel b)
      if o = '+' then x + y else x - y
    | none => match splitOperator ['*', '/', '%'] cs with
      | some (a, o, b) =>
        let (x, y) := (arithmetic value fuel a, arithmetic value fuel b)
        if o = '*' then x * y else if o = '/' then Int.tdiv x y else Int.tmod x y
      | none =>
        let term := String.ofList cs
        term.toInt?.getD (value (String.ofList (cs.filter (· != '$'))))

/-- The lines of bytes, without their ends. -/
def byteLines (bytes : Bytes) : List Bytes :=
  let (lines, last) := bytes.foldl (fun (acc : List Bytes × Bytes) b =>
    if b == 10 then (acc.1 ++ [acc.2], []) else (acc.1, acc.2 ++ [b])) ([], [])
  if last.isEmpty then lines else lines ++ [last]

end Stagewise.Shell
