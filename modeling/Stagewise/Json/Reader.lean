import Stagewise.Json.Basic
/-!
# Reading document values

A text is first cut into tokens, one character at a time, and the tokens are then put together with
a stack of the lists and objects that are still open. Both passes follow their input and so end with
it. Lists and objects may be nested at most `depthLimit` deep; what lies deeper has to be well
formed, but is unreadable.
-/

namespace Stagewise.Json

/-- The deepest nesting of lists and objects that can be used. -/
def depthLimit : Nat := 127

/-- A piece of a text. A text with half of a surrogate pair has no value. -/
inductive Token where
  | openList | closeList | openObject | closeObject | comma | colon
  | text (value : Option String)
  | scalar (value : Json)
  deriving Repr, Inhabited

/-- Integers that are kept exactly: the signed and the unsigned words of 64 bits. -/
def isWord (n : Int) : Bool := -9223372036854775808 ≤ n && n < 18446744073709551616

/-- The value of a number behind its sign, or nothing if the characters do not have the form of
numbers in documents. -/
def magnitudeOfChars? (negative : Bool) (cs : List Char) : Option Json := do
  let whole := cs.takeWhile Char.isDigit
  let rest := cs.dropWhile Char.isDigit
  guard (!whole.isEmpty && (whole.length == 1 || whole.head? != some '0'))
  let (fraction, hasFraction, rest) := match rest with
    | '.' :: r => (r.takeWhile Char.isDigit, true, r.dropWhile Char.isDigit)
    | r => ([], false, r)
  guard (!(hasFraction && fraction.isEmpty))
  let (power, hasPower) ← match rest with
    | [] => some ((0 : Int), false)
    | e :: r =>
      if e = 'e' ∨ e = 'E' then
        let (down, r) := match r with
          | '-' :: r => (true, r)
          | '+' :: r => (false, r)
          | r => (false, r)
        (Text.natOfDigits? r).map fun n => (if down then -(n : Int) else n, true)
      else none
  let digits ← Text.natOfDigits? (whole ++ fraction)
  let exact : Int := if negative then -(digits : Int) else digits
  if !hasFraction && !hasPower && isWord exact && !(negative && digits == 0) then
    return .int exact
  else
    return match Decimal.ofScaled? negative digits (power - fraction.length) with
      | some x => .real x
      | none => .unreadable

/-- The value of a number with its sign. -/
def numberOfChars? : List Char → Option Json
  | '-' :: r => magnitudeOfChars? true r
  | r => magnitudeOfChars? false r

def wordOfChars? (cs : List Char) : Option Json :=
  match String.ofList cs with
  | "null" => some .null
  | "true" => some (.bool true)
  | "false" => some (.bool false)
  | _ => none

/-- Where the cutting of a text stands. The characters of the piece at hand are kept in reverse. -/
inductive Cutting where
  | between
  | number (taken : List Char)
  | word (taken : List Char)
  | inText (taken : List Char) (usable : Bool)
  | escape (taken : List Char) (usable : Bool)
  | code (taken : List Char) (usable : Bool) (digits : List Char) (high : Option Nat)
  | afterHigh (taken : List Char) (usable : Bool) (high : Nat)
  | lowEscape (taken : List Char) (usable : Bool) (high : Nat)
  deriving Repr

def isNumberChar (c : Char) : Bool :=
  c.isDigit || c == '-' || c == '+' || c == '.' || c == 'e' || c == 'E'

/-- What a character outside of all pieces begins, and the token it is. -/
def begin? (c : Char) : Option (List Token × Cutting) :=
  match c with
  | ' ' | '\n' | '\t' | '\r' => some ([], .between)
  | '[' => some ([.openList], .between)
  | ']' => some ([.closeList], .between)
  | '\x7b' => some ([.openObject], .between)
  | '\x7d' => some ([.closeObject], .between)
  | ',' => some ([.comma], .between)
  | ':' => some ([.colon], .between)
  | '"' => some ([], .inText [] true)
  | c =>
    if c = '-' ∨ c.isDigit then some ([], .number [c])
    else if c.isLower then some ([], .word [c])
    else none

/-- The character that a one-letter escape stands for. -/
def unescape? (c : Char) : Option Char :=
  match c with
  | '"' => some '"'
  | '\\' => some '\\'
  | '/' => some '/'
  | 'b' => some '\x08'
  | 'f' => some '\x0c'
  | 'n' => some '\n'
  | 'r' => some '\r'
  | 't' => some '\t'
  | _ => none

/-- What follows when four digits of an escape name a unit of sixteen bits. -/
def closeCode (taken : List Char) (usable : Bool) (unit : Nat) : Option Nat → Cutting
  | none =>
    if 0xD800 ≤ unit ∧ unit < 0xDC00 then .afterHigh taken usable unit
    else if 0xDC00 ≤ unit ∧ unit < 0xE000 then .inText taken false
    else .inText (Char.ofNat unit :: taken) usable
  | some high =>
    if 0xDC00 ≤ unit ∧ unit < 0xE000 then
      .inText (Char.ofNat (0x10000 + (high - 0xD800) * 0x400 + (unit - 0xDC00)) :: taken) usable
    else .inText taken false

def textStep? (taken : List Char) (usable : Bool) (c : Char) : Option (List Token × Cutting) :=
  if c = '"' then
    some ([.text (if usable then some (String.ofList taken.reverse) else none)], .between)
  else if c = '\\' then some ([], .escape taken usable)
  else if c.toNat < 0x20 then none
  else some ([], .inText (c :: taken) usable)

/-- One character further: the tokens that it completes and where the cutting stands then. -/
def cut? : Cutting → Char → Option (List Token × Cutting)
  | .between, c => begin? c
  | .number taken, c =>
    if isNumberChar c then some ([], .number (c :: taken))
    else do
      let j ← numberOfChars? taken.reverse
      let (ts, next) ← begin? c
      return (.scalar j :: ts, next)
  | .word taken, c =>
    if c.isAlphanum then some ([], .word (c :: taken))
    else do
      let j ← wordOfChars? taken.reverse
      let (ts, next) ← begin? c
      return (.scalar j :: ts, next)
  | .inText taken usable, c => textStep? taken usable c
  | .escape taken usable, c =>
    if c = 'u' then some ([], .code taken usable [] none)
    else (unescape? c).map fun d => ([], .inText (d :: taken) usable)
  | .code taken usable digits high, c => do
    let _ ← Text.hexDigit? c
    if digits.length = 3 then
      let unit ← Text.natOfHex? (c :: digits).reverse
      return ([], closeCode taken usable unit high)
    else return ([], .code taken usable (c :: digits) high)
  | .afterHigh taken usable high, c =>
    if c = '\\' then some ([], .lowEscape taken usable high) else textStep? taken false c
  | .lowEscape taken usable high, c =>
    if c = 'u' then some ([], .code taken usable [] (some high))
    else (unescape? c).map fun d => ([], .inText (d :: taken) false)

def Cutting.finish? : Cutting → Option (List Token)
  | .between => some []
  | .number taken => (numberOfChars? taken.reverse).map fun j => [.scalar j]
  | .word taken => (wordOfChars? taken.reverse).map fun j => [.scalar j]
  | _ => none

/-- The tokens of a text from a point of the cutting on. -/
def tokensFrom? : Cutting → List Char → Option (List Token)
  | at', [] => at'.finish?
  | at', c :: rest => do
    let (ts, next) ← cut? at' c
    return ts ++ (← tokensFrom? next rest)

/-- An open list or object: what it holds so far, in reverse, and the name of the member at hand. As
soon as a name has half of a surrogate pair, none of the members can be used. -/
inductive Frame where
  | list (items : List Json)
  | member (members : Option (List (String × Json))) (key : Option String)
  deriving Repr

/-- What the reading of tokens may meet next. -/
inductive Expecting where
  | value
  | valueOrClose
  | keyOrClose
  | key
  | colon
  | commaOrClose
  | done
  deriving Repr, DecidableEq

/-- The lists and objects that are open, the innermost first, what may come next, and the value once
it is whole. -/
structure Assembly where
  frames : List Frame
  expecting : Expecting
  result : Option Json
  deriving Repr

def Assembly.start : Assembly := ⟨[], .value, none⟩

/-- A whole value goes into the innermost open list or object. -/
def Assembly.accept (frames : List Frame) (j : Json) : Assembly :=
  match frames with
  | [] => ⟨[], .done, some j⟩
  | .list items :: outer => ⟨.list (j :: items) :: outer, .commaOrClose, none⟩
  | .member members key :: outer =>
    ⟨.member (members.bind fun ms => key.map fun k => (k, j) :: ms) none :: outer, .commaOrClose,
      none⟩

/-- The object of some members, which are given in reverse, if they can be used. -/
def objectOf (members : Option (List (String × Json))) : Json :=
  match members with
  | some ms => .object ms.reverse
  | none => .unreadable

/-- A closed list or object, unreadable if it lies too deep. -/
def close (outer : List Frame) (j : Json) : Json :=
  if outer.length < depthLimit then j else .unreadable

/-- One token further. -/
def Assembly.step? (a : Assembly) (t : Token) : Option Assembly :=
  match a.expecting, t, a.frames with
  | .value, .openList, fs | .valueOrClose, .openList, fs =>
    some ⟨.list [] :: fs, .valueOrClose, none⟩
  | .value, .openObject, fs | .valueOrClose, .openObject, fs =>
    some ⟨.member (some []) none :: fs, .keyOrClose, none⟩
  | .value, .scalar j, fs | .valueOrClose, .scalar j, fs => some (.accept fs j)
  | .value, .text s, fs | .valueOrClose, .text s, fs =>
    some (.accept fs (match s with | some s => .text s | none => .unreadable))
  | .valueOrClose, .closeList, .list _ :: fs => some (.accept fs (close fs (.list [])))
  | .keyOrClose, .closeObject, .member _ _ :: fs => some (.accept fs (close fs (.object [])))
  | .keyOrClose, .text key, .member ms _ :: fs | .key, .text key, .member ms _ :: fs =>
    some ⟨.member ms key :: fs, .colon, none⟩
  | .colon, .colon, fs => some ⟨fs, .value, none⟩
  | .commaOrClose, .comma, .list items :: fs => some ⟨.list items :: fs, .value, none⟩
  | .commaOrClose, .comma, .member ms k :: fs => some ⟨.member ms k :: fs, .key, none⟩
  | .commaOrClose, .closeList, .list items :: fs =>
    some (.accept fs (close fs (.list items.reverse)))
  | .commaOrClose, .closeObject, .member ms _ :: fs =>
    some (.accept fs (close fs (objectOf ms)))
  | _, _, _ => none

/-- The value that a list of tokens is the text of. -/
def ofTokens? (ts : List Token) : Option Json := do
  let a ← ts.foldlM Assembly.step? Assembly.start
  a.result

/-- Reads a text that holds one value. Object members stay in the order of the text. -/
def read? (s : String) : Option Json := do
  let ts ← tokensFrom? .between s.toList
  ofTokens? ts

end Stagewise.Json
