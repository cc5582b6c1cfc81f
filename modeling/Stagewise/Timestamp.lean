import Stagewise.Json.Decode
import Stagewise.Text.Blank
/-!
# Points in time

A point in time is a second of the proleptic Gregorian calendar in UTC and a number of nanoseconds.
A leap second is kept as the second before it with a thousand million nanoseconds or more. Times are
written with a `Z` and as many groups of three fraction digits as are needed; they are read with any
offset.
-/

namespace Stagewise

/-- Seconds since the start of 1970 and nanoseconds. -/
structure Timestamp where
  seconds : Int
  nanos : Nat
  deriving DecidableEq, Repr, Inhabited

/-- A day of the calendar. -/
structure Day where
  year : Int
  month : Nat
  day : Nat
  deriving DecidableEq, Repr, Inhabited

namespace Day

/-- Years divisible by four, but by hundred only if also by four hundred. -/
def isLeap (year : Int) : Bool := year % 4 == 0 && (year % 100 != 0 || year % 400 == 0)

def daysIn (year : Int) (month : Nat) : Nat :=
  if month = 2 then (if isLeap year then 29 else 28)
  else if month = 4 ∨ month = 6 ∨ month = 9 ∨ month = 11 then 30
  else 31

/-- Whether there is such a day, in the years that points in time can lie in. -/
def exists? (d : Day) : Bool :=
  -262143 ≤ d.year && d.year ≤ 262142 && 1 ≤ d.month && d.month ≤ 12 && 1 ≤ d.day && d.day
    ≤ daysIn d.year d.month

/-- The days since the first day of 1970. Years are counted from March, so that the leap day ends
them. -/
def number (d : Day) : Int :=
  let y := if d.month ≤ 2 then d.year - 1 else d.year
  let era := y / 400
  let ofEra := y - era * 400
  let m : Int := if 2 < d.month then d.month - 3 else d.month + 9
  let ofYear := (153 * m + 2) / 5 + d.day - 1
  era * 146097 + ofEra * 365 + ofEra / 4 - ofEra / 100 + ofYear - 719468

/-- The day with the given number. -/
def ofNumber (n : Int) : Day :=
  let z := n + 719468
  let era := z / 146097
  let doe := z - era * 146097
  let yoe := (doe - doe / 1460 + doe / 36524 - doe / 146096) / 365
  let doy := doe - (365 * yoe + yoe / 4 - yoe / 100)
  let mp := (5 * doy + 2) / 153
  let day := doy - (153 * mp + 2) / 5 + 1
  let month := if mp < 10 then mp + 3 else mp - 9
  let year := yoe + era * 400 + (if month ≤ 2 then 1 else 0)
  ⟨year, month.toNat, day.toNat⟩

/-- Four digits, or a sign and at least four digits outside of the years 0 to 9999. -/
def yearText (year : Int) : List Char :=
  if 0 ≤ year ∧ year ≤ 9999 then Text.padded 4 year.toNat
  else (if year < 0 then '-' else '+') :: Text.padded 4 year.natAbs

def text (d : Day) : List Char :=
  yearText d.year ++ '-' :: (Text.padded 2 d.month ++ '-' :: Text.padded 2 d.day)

end Day

namespace Timestamp

/-- Earlier second, or the same second and fewer nanoseconds. -/
def before (a b : Timestamp) : Bool :=
  a.seconds < b.seconds || (a.seconds == b.seconds && a.nanos < b.nanos)

def notAfter (a b : Timestamp) : Bool := !b.before a

def addNanos (t : Timestamp) (n : Nat) : Timestamp :=
  let total := t.nanos + n
  ⟨t.seconds + (total / 1000000000 : Nat), total % 1000000000⟩

def day (t : Timestamp) : Day := Day.ofNumber (t.seconds / 86400)

/-- Hour, minute and second in UTC; a leap second is second sixty. -/
def clock (t : Timestamp) : List Char :=
  let s := (t.seconds % 86400).toNat
  let second := s % 60 + (if 1000000000 ≤ t.nanos then 1 else 0)
  Text.padded 2 (s / 3600) ++ ':' :: (Text.padded 2 (s / 60 % 60) ++ ':' :: Text.padded 2 second)

/-- The fraction of the second in the fewest groups of three digits. -/
def fraction (t : Timestamp) : List Char :=
  let n := t.nanos % 1000000000
  if n = 0 then []
  else if n % 1000000 = 0 then '.' :: Text.padded 3 (n / 1000000)
  else if n % 1000 = 0 then '.' :: Text.padded 6 (n / 1000)
  else '.' :: Text.padded 9 n

def text (t : Timestamp) : String :=
  String.ofList (t.day.text ++ 'T' :: (t.clock ++ (t.fraction ++ ['Z'])))

def plain (t : Timestamp) : String := String.ofList (t.day.text ++ ' ' :: t.clock)

def withMillis (t : Timestamp) : String :=
  t.plain ++ String.ofList ('.' :: Text.padded 3 (t.nanos % 1000000000 / 1000000))

/-- Between one and `max` digits, and what follows them. -/
def takeNumber? (max : Nat) (cs : List Char) : Option (Nat × List Char) := do
  let ds := (cs.take max).takeWhile Char.isDigit
  let n ← Text.natOfDigits? ds
  return (n, cs.drop ds.length)

/-- A number of at most `max` digits behind blanks. -/
def takeSpaced? (max : Nat) (cs : List Char) : Option (Nat × List Char) :=
  takeNumber? max (Text.dropBlanks cs)

def takeMark? (c : Char) (cs : List Char) : Option (List Char) :=
  match Text.dropBlanks cs with
  | d :: rest => if d = c then some rest else none
  | [] => none

/-- A year of up to four digits, or of any number of digits behind a sign. -/
def takeYear? (cs : List Char) : Option (Int × List Char) :=
  match Text.dropBlanks cs with
  | '-' :: rest => (takeNumber? rest.length rest).map fun (n, r) => (-(n : Int), r)
  | '+' :: rest => (takeNumber? rest.length rest).map fun (n, r) => ((n : Int), r)
  | rest => (takeNumber? 4 rest).map fun (n, r) => ((n : Int), r)

def takeTwo? : List Char → Option (Nat × List Char)
  | a :: b :: rest => do
    let x ← Text.digit? a
    let y ← Text.digit? b
    return (10 * x + y, rest)
  | _ => none

/-- The fraction behind a point in nanoseconds, digits beyond the ninth skipped; zero without a
point. -/
def takeFraction? : List Char → Option (Nat × List Char)
  | '.' :: rest => do
    let ds := (rest.takeWhile Char.isDigit).take 9
    let n ← Text.natOfDigits? ds
    return (n * Nat.pow 10 (9 - ds.length), rest.dropWhile Char.isDigit)
  | rest => some (0, rest)

/-- The offset from UTC in seconds: a letter Z, the letters UTC, or a sign with hours and
minutes. -/
def takeOffset? (cs : List Char) : Option (Int × List Char) :=
  let signed (negative : Bool) (rest : List Char) : Option (Int × List Char) := do
    let (hours, rest) ← takeTwo? rest
    let (minutes, rest) ← takeTwo? (rest.dropWhile fun c => c == ':' || Text.isBlank c)
    guard (minutes < 60)
    let offset : Int := hours * 3600 + minutes * 60
    return (if negative then -offset else offset, rest)
  match cs with
  | 'Z' :: rest | 'z' :: rest => some (0, rest)
  | '+' :: rest => signed false rest
  | '-' :: rest | '−' :: rest => signed true rest
  | a :: b :: c :: rest =>
    if [a, b, c].map Char.toUpper = ['U', 'T', 'C'] then some (0, rest) else none
  | _ => none

/-- The first and the last second that points in time can lie in. -/
def secondRange : Int × Int :=
  (Day.number ⟨-262143, 1, 1⟩ * 86400, Day.number ⟨262142, 12, 31⟩ * 86400 + 86399)

/-- Reads a point in time: date, a `T` or a blank, clock, and offset. -/
def parse? (s : String) : Option Timestamp := do
  let (year, cs) ← takeYear? s.toList
  let cs ← takeMark? '-' cs
  let (month, cs) ← takeSpaced? 2 cs
  let cs ← takeMark? '-' cs
  let (day, cs) ← takeSpaced? 2 cs
  let cs ← match cs with
    | 'T' :: rest | 't' :: rest | ' ' :: rest => some rest
    | _ => none
  let (hour, cs) ← takeSpaced? 2 cs
  let cs ← takeMark? ':' cs
  let (minute, cs) ← takeSpaced? 2 cs
  let cs ← takeMark? ':' cs
  let (second, cs) ← takeSpaced? 2 cs
  let (nanos, cs) ← takeFraction? cs
  let (offset, cs) ← takeOffset? (Text.dropBlanks cs)
  let d : Day := ⟨year, month, day⟩
  guard ((Text.dropBlanks cs).isEmpty && d.exists? && hour < 24 && minute < 60 && second ≤ 60)
  guard (offset.natAbs < 86400)
  let leap := second = 60
  let ofDay : Int := hour * 3600 + minute * 60 + (if leap then 59 else second)
  let seconds := d.number * 86400 + ofDay - offset
  guard (secondRange.1 ≤ seconds && seconds ≤ secondRange.2)
  return ⟨seconds, if leap then nanos + 1000000000 else nanos⟩

instance : Document Timestamp where
  toJson t := .text t.text
  ofJson j := do
    let s ← Decode.text j
    match parse? s with
    | some t => return t
    | none => throw (.malformed s!"invalid time {s}")

end Timestamp

end Stagewise
