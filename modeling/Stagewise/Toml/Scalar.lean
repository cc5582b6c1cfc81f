import Stagewise.Json.Basic
import Stagewise.Text.Digits
import Stagewise.Timestamp
/-!
# Texts, numbers and times of configuration files

Each reader takes its value off the front of the characters and leaves the rest. Texts are basic
ones with escapes or literal ones without, on one line or, between three quotes, on several. A time
is kept as an object that holds its text under a name of its own, so that it passes for nothing but
itself.
-/

namespace Stagewise.Toml

def isBlank (c : Char) : Bool := c == ' ' || c == '\t'

def dropBlanks (cs : List Char) : List Char := cs.dropWhile isBlank

/-- Characters that comments and texts may hold: everything but controls, of which the tab is
allowed. -/
def isPlain (c : Char) : Bool := c == '\t' || (32 ≤ c.toNat && c.toNat != 127)

/-- The end of a line: a line feed, or a carriage return and one. -/
def takeBreak? : List Char → Option (List Char)
  | '\n' :: rest => some rest
  | '\r' :: '\n' :: rest => some rest
  | _ => none

/-- The characters behind the blanks and ends of lines in front. -/
def dropSpace : List Char → List Char
  | '\r' :: '\n' :: rest => dropSpace rest
  | c :: rest => if isBlank c || c == '\n' then dropSpace rest else c :: rest
  | [] => []

/-- The character with a code of so many hexadecimal digits. -/
def takeCode? (count : Nat) (cs : List Char) : Option (Char × List Char) := do
  let digits := cs.take count
  guard (digits.length = count)
  let n ← Text.natOfHex? digits
  if n.isValidChar then return (Char.ofNat n, cs.drop count) else none

/-- The character that an escape stands for, behind its backslash. -/
def takeEscape? : List Char → Option (Char × List Char)
  | 'b' :: rest => some ('\x08', rest)
  | 't' :: rest => some ('\t', rest)
  | 'n' :: rest => some ('\n', rest)
  | 'f' :: rest => some ('\x0c', rest)
  | 'r' :: rest => some ('\r', rest)
  | '"' :: rest => some ('"', rest)
  | '\\' :: rest => some ('\\', rest)
  | 'u' :: rest => takeCode? 4 rest
  | 'U' :: rest => takeCode? 8 rest
  | _ => none

/-- A text whose characters have been taken in reverse. -/
def ofTaken (taken : List Char) : String := String.ofList taken.reverse

/-- The rest of a basic text on one line, up to its closing quote. -/
def basicBody? : (fuel : Nat) → (taken : List Char) → List Char → Option (String × List Char)
  | 0, _, _ => none
  | _ + 1, taken, '"' :: rest => some (ofTaken taken, rest)
  | fuel + 1, taken, '\\' :: rest => do
    let (c, rest) ← takeEscape? rest
    basicBody? fuel (c :: taken) rest
  | fuel + 1, taken, c :: rest => if isPlain c then basicBody? fuel (c :: taken) rest else none
  | _ + 1, _, [] => none

/-- A text ends with three quotes; of further quotes behind them up to two belong to the text. -/
def closeLong (quote : Char) (taken rest : List Char) : String × List Char :=
  let more := min 2 (rest.takeWhile (· == quote)).length
  (ofTaken (List.replicate more quote ++ taken), rest.drop more)

/-- The rest of a basic text on several lines. A backslash at the end of a line takes the space
behind it away. -/
def longBasicBody? : (fuel : Nat) → (taken : List Char) → List Char → Option (String × List Char)
  | 0, _, _ => none
  | _ + 1, taken, '"' :: '"' :: '"' :: rest => some (closeLong '"' taken rest)
  | fuel + 1, taken, '\\' :: rest =>
    match takeBreak? (dropBlanks rest) with
    | some rest => longBasicBody? fuel taken (dropSpace rest)
    | none => do
      let (c, rest) ← takeEscape? rest
      longBasicBody? fuel (c :: taken) rest
  | fuel + 1, taken, c :: rest =>
    match takeBreak? (c :: rest) with
    | some rest => longBasicBody? fuel ('\n' :: taken) rest
    | none => if isPlain c then longBasicBody? fuel (c :: taken) rest else none
  | _ + 1, _, [] => none

/-- The rest of a literal text on several lines. -/
def longLiteralBody? : (fuel : Nat) → (taken : List Char) → List Char → Option (String × List Char)
  | 0, _, _ => none
  | _ + 1, taken, '\'' :: '\'' :: '\'' :: rest => some (closeLong '\'' taken rest)
  | fuel + 1, taken, c :: rest =>
    match takeBreak? (c :: rest) with
    | some rest => longLiteralBody? fuel ('\n' :: taken) rest
    | none => if isPlain c then longLiteralBody? fuel (c :: taken) rest else none
  | _ + 1, _, [] => none

/-- A text on one line. -/
def takeLine? : List Char → Option (String × List Char)
  | '"' :: rest => basicBody? (rest.length + 1) [] rest
  | '\'' :: rest =>
    let isInside (c : Char) : Bool := isPlain c && c != '\''
    match rest.dropWhile isInside with
    | '\'' :: after => some (String.ofList (rest.takeWhile isInside), after)
    | _ => none
  | _ => none

/-- A text. The end of the line right behind three opening quotes is no part of it. -/
def takeText? (cs : List Char) : Option (String × List Char) :=
  let skipBreak (rest : List Char) : List Char := (takeBreak? rest).getD rest
  match cs with
  | '"' :: '"' :: '"' :: rest => longBasicBody? (rest.length + 1) [] (skipBreak rest)
  | '\'' :: '\'' :: '\'' :: rest => longLiteralBody? (rest.length + 1) [] (skipBreak rest)
  | cs => takeLine? cs

/-- Digits of which two may have a low line between them. -/
def takeDigits? (isDigit : Char → Bool) (cs : List Char) : Option (List Char × List Char) := do
  let taken := cs.takeWhile fun c => isDigit c || c == '_'
  let groups := (String.ofList taken).splitOn "_"
  guard (groups.all fun g => !g.isEmpty)
  return (taken.filter (· != '_'), cs.drop taken.length)

/-- A decimal whole number without needless zeros in front. -/
def takeWhole? (cs : List Char) : Option (List Char × List Char) :=
  match cs with
  | '0' :: rest => some (['0'], rest)
  | cs => takeDigits? Char.isDigit cs

def takeSign : List Char → Bool × List Char
  | '-' :: rest => (true, rest)
  | '+' :: rest => (false, rest)
  | rest => (false, rest)

/-- The power of ten behind a fraction. -/
def takePower? : List Char → Option (Int × List Char)
  | e :: rest =>
    if e = 'e' ∨ e = 'E' then do
      let (down, rest) := takeSign rest
      let (digits, rest) ← takeDigits? Char.isDigit rest
      let n ← Text.natOfDigits? digits
      return (if down then -(n : Int) else n, rest)
    else none
  | [] => none

/-- A fraction, or one of the words for what is no finite number; those are kept as null. -/
def takeReal? (cs : List Char) : Option (Json × List Char) := do
  let (negative, cs) := takeSign cs
  match cs with
  | 'i' :: 'n' :: 'f' :: rest | 'n' :: 'a' :: 'n' :: rest => return (.null, rest)
  | cs =>
    let (whole, cs) ← takeWhole? cs
    let (fraction, power, rest) ← match cs with
      | '.' :: cs => do
        let (fraction, cs) ← takeDigits? Char.isDigit cs
        match takePower? cs with
        | some (power, cs) => some (fraction, power, cs)
        | none => some (fraction, 0, cs)
      | cs => (takePower? cs).map fun (power, cs) => ([], power, cs)
    let digits ← Text.natOfDigits? (whole ++ fraction)
    let x ← Decimal.ofScaled? negative digits (power - fraction.length)
    return (.real x, rest)

def isDigitOf (base : Nat) (c : Char) : Bool :=
  match Text.hexDigit? c with
  | some n => n < base
  | none => false

def valueIn (base : Nat) (cs : List Char) : Nat :=
  cs.foldl (fun n c => base * n + (Text.hexDigit? c).getD 0) 0

/-- A whole number in a word of 64 bits. -/
def takeInteger? (cs : List Char) : Option (Json × List Char) := do
  let unsignedIn (base : Nat) (rest : List Char) : Option (Int × List Char) := do
    let (digits, rest) ← takeDigits? (isDigitOf base) rest
    return ((valueIn base digits : Int), rest)
  let (n, rest) ← match cs with
    | '0' :: 'x' :: rest => unsignedIn 16 rest
    | '0' :: 'o' :: rest => unsignedIn 8 rest
    | '0' :: 'b' :: rest => unsignedIn 2 rest
    | cs => do
      let (negative, cs) := takeSign cs
      let (digits, rest) ← takeWhole? cs
      let n : Int := valueIn 10 digits
      pure (if negative then -n else n, rest)
  guard (-9223372036854775808 ≤ n ∧ n < 9223372036854775808)
  return (.int n, rest)

def takeFixed? (count : Nat) (cs : List Char) : Option (Nat × List Char) := do
  let digits := (cs.take count).takeWhile Char.isDigit
  guard (digits.length = count)
  let n ← Text.natOfDigits? digits
  return (n, cs.drop count)

def takeMark? (c : Char) : List Char → Option (List Char)
  | d :: rest => if d = c then some rest else none
  | [] => none

/-- A day of the calendar. -/
def takeDay? (cs : List Char) : Option (List Char × List Char) := do
  let (year, cs) ← takeFixed? 4 cs
  let cs ← takeMark? '-' cs
  let (month, cs) ← takeFixed? 2 cs
  let cs ← takeMark? '-' cs
  let (day, cs) ← takeFixed? 2 cs
  let d : Day := ⟨year, month, day⟩
  guard d.exists?
  return (d.text, cs)

/-- A time of the day; digits of the second beyond the ninth are skipped, and zeros at their end are
not written. -/
def takeClock? (cs : List Char) : Option (List Char × List Char) := do
  let (hour, cs) ← takeFixed? 2 cs
  let cs ← takeMark? ':' cs
  let (minute, cs) ← takeFixed? 2 cs
  let cs ← takeMark? ':' cs
  let (second, cs) ← takeFixed? 2 cs
  guard (hour < 24 ∧ minute < 60 ∧ second ≤ 60)
  let (fraction, cs) ← match cs with
    | '.' :: rest =>
      let digits := rest.takeWhile Char.isDigit
      if digits.isEmpty then none else some (digits.take 9, rest.drop digits.length)
    | cs => some ([], cs)
  let fraction := (fraction.reverse.dropWhile (· == '0')).reverse
  let text := Text.padded 2 hour ++ ':' :: Text.padded 2 minute ++ ':' :: Text.padded 2 second
  return (if fraction.isEmpty then text else text ++ '.' :: fraction, cs)

/-- The distance from universal time, if one is given. -/
def takeOffset? : List Char → Option (List Char × List Char)
  | 'Z' :: rest | 'z' :: rest => some (['Z'], rest)
  | c :: rest =>
    if c = '+' ∨ c = '-' then do
      let (hour, cs) ← takeFixed? 2 rest
      let cs ← takeMark? ':' cs
      let (minute, cs) ← takeFixed? 2 cs
      guard (hour < 24 ∧ minute < 60)
      let sign := if hour = 0 ∧ minute = 0 then '+' else c
      return (sign :: Text.padded 2 hour ++ ':' :: Text.padded 2 minute, cs)
    else some ([], c :: rest)
  | [] => some ([], [])

/-- The name under which the text of a time is kept. -/
def timeKey : String := "$__toml_private_datetime"

/-- A day, a time of the day, or both with or without a distance from universal time. -/
def takeTime? (cs : List Char) : Option (Json × List Char) := do
  let value (text : List Char) : Json := .object [(timeKey, .text (String.ofList text))]
  match takeDay? cs with
  | some (day, rest) =>
    let both := match rest with
      | c :: rest => if c = 'T' ∨ c = 't' ∨ c = ' ' then takeClock? rest else none
      | [] => none
    match both with
    | some (clock, rest) =>
      let (offset, rest) ← takeOffset? rest
      return (value (day ++ 'T' :: clock ++ offset), rest)
    | none => return (value day, rest)
  | none =>
    let (clock, rest) ← takeClock? cs
    return (value clock, rest)

def takeTruth? : List Char → Option (Json × List Char)
  | 't' :: 'r' :: 'u' :: 'e' :: rest => some (.bool true, rest)
  | 'f' :: 'a' :: 'l' :: 's' :: 'e' :: rest => some (.bool false, rest)
  | _ => none

def takeScalar? (cs : List Char) : Option (Json × List Char) :=
  match cs with
  | '"' :: _ | '\'' :: _ => (takeText? cs).map fun (s, rest) => (.text s, rest)
  | 't' :: _ | 'f' :: _ => takeTruth? cs
  | cs => takeTime? cs <|> takeReal? cs <|> takeInteger? cs

end Stagewise.Toml
