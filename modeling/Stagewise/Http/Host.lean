import Stagewise.Http.Percent
/-!
# Hosts

The host of an address on the web: a name, four numbers, or eight. Names are written in small
letters; a label with characters beyond the first 128 is written in the letters and digits of its
encoding behind `xn--`, and a label that stands behind these letters already has to be such an
encoding.
-/

namespace Stagewise.Http

/-- What is wrong with an address. -/
inductive UrlError where
  | emptyHost
  | invalidName
  | invalidPort
  | invalidIpv4
  | invalidIpv6
  | invalidCharacter
  | relative
  | opaquePath
  deriving DecidableEq, Repr

/-- The wording of an error. -/
def UrlError.message : UrlError → String
  | .emptyHost => "empty host"
  | .invalidName => "invalid international domain name"
  | .invalidPort => "invalid port number"
  | .invalidIpv4 => "invalid IPv4 address"
  | .invalidIpv6 => "invalid IPv6 address"
  | .invalidCharacter => "invalid domain character"
  | .relative => "relative URL without a base"
  | .opaquePath => "relative URL with a cannot-be-a-base base"

/-- A host. A verbatim one belongs to a scheme that knows nothing of hosts. -/
inductive Host where
  | domain (name : String)
  | ipv4 (address : Nat)
  | ipv6 (pieces : List Nat)
  | verbatim (text : String)
  deriving DecidableEq, Repr

namespace Host

/-- The longest run of at least two zeros: where it begins and how long it is. Of two the first. -/
def longestZeros (pieces : List Nat) : Option (Nat × Nat) :=
  let runs := (List.range pieces.length).map fun i =>
    (i, ((pieces.drop i).takeWhile (· == 0)).length)
  runs.foldl (fun best run =>
    match best with
    | some (_, n) => if n < run.2 then some run else best
    | none => if 2 ≤ run.2 then some run else none) none

def pieceText (n : Nat) : String := String.ofList (Nat.toDigits 16 n)

def piecesText (pieces : List Nat) : String := String.intercalate ":" (pieces.map pieceText)

/-- The written form of a host. -/
def text : Host → String
  | .domain name | .verbatim name => name
  | .ipv4 n =>
    String.intercalate "." ([n / 16777216, n / 65536 % 256, n / 256 % 256, n % 256].map toString)
  | .ipv6 pieces =>
    let body := match longestZeros pieces with
      | some (start, length) =>
        piecesText (pieces.take start) ++ "::" ++ piecesText (pieces.drop (start + length))
      | none => piecesText pieces
    "[" ++ body ++ "]"

/-- A number of a dotted address: decimal, octal behind a zero, hexadecimal behind `0x`. -/
def number? (s : String) : Option Nat :=
  let inBase (base : Nat) (cs : List Char) : Option Nat :=
    cs.foldlM (fun n c =>
      (Text.hexDigit? c).bind fun d => if d < base then some (base * n + d) else none) 0
  match s.toList with
  | [] => none
  | '0' :: 'x' :: cs | '0' :: 'X' :: cs => inBase 16 cs
  | '0' :: c :: cs => inBase 8 (c :: cs)
  | cs => inBase 10 cs

/-- The labels of a name without an empty one at its end. -/
def labels (name : String) : List String :=
  let parts := name.splitOn "."
  if parts.getLast? == some "" then parts.dropLast else parts

/-- Whether a name has to be an address of four numbers, because its last label is one. -/
def endsInNumber (name : String) : Bool :=
  match (labels name).getLast? with
  | some label => (!label.isEmpty && label.toList.all Char.isDigit) || (number? label).isSome
  | none => false

/-- An address of up to four numbers, of which the last fills the places that are left. -/
def ipv4Of (name : String) : Except UrlError Host := do
  let parts := labels name
  if 4 < parts.length then throw .invalidIpv4
  let numbers ← parts.mapM fun p => match number? p with
    | some n => pure n
    | none => throw UrlError.invalidIpv4
  match numbers.reverse with
  | [] => throw .invalidIpv4
  | last :: before =>
    let before := before.reverse
    if Nat.pow 256 (4 - before.length) ≤ last || before.any (255 < ·) then throw .invalidIpv4
    let high := before.zipIdx.foldl (fun sum (n, i) => sum + n * Nat.pow 256 (3 - i)) 0
    return .ipv4 (high + last)

/-- A number below 256 in decimal digits without zeros in front. -/
def octet? (s : String) : Option Nat := do
  let cs := s.toList
  let n ← Text.natOfDigits? cs
  guard (n < 256 && (cs.length == 1 || cs.head? != some '0'))
  return n

/-- The pieces of one side of an address of eight numbers; the last two may be written as four
numbers with points. -/
def pieces? (mayDot : Bool) (s : String) : Option (List Nat) :=
  if s.isEmpty then some []
  else
    let parts := s.splitOn ":"
    let plain (p : String) : Option Nat := do
      guard (!p.isEmpty && p.length ≤ 4)
      Text.natOfHex? p.toList
    match parts.getLast? with
    | some last =>
      if mayDot && last.toList.contains '.' then do
        let front ← parts.dropLast.mapM plain
        match ← (last.splitOn ".").mapM octet? with
        | [a, b, c, d] => return front ++ [256 * a + b, 256 * c + d]
        | _ => none
      else parts.mapM plain
    | none => none

/-- An address of eight numbers; two colons stand for zeros in the stead of at least one of them. -/
def ipv6Of (s : String) : Except UrlError Host :=
  let found : Option (List Nat) := match s.splitOn "::" with
    | [whole] => do
      guard (!whole.isEmpty)
      let ps ← pieces? true whole
      guard (ps.length = 8)
      return ps
    | [front, back] => do
      let front ← pieces? false front
      let back ← pieces? true back
      guard (front.length + back.length < 8)
      return front ++ List.replicate (8 - front.length - back.length) 0 ++ back
    | _ => none
  match found with
  | some ps => .ok (.ipv6 ps)
  | none => .error .invalidIpv6

def forbidden : List Char :=
  [' ', '#', '/', ':', '<', '>', '?', '@', '[', '\\', ']', '^', '|', '%', '\x7f']

def isIgnored (c : Char) : Bool :=
  c == '\u00ad' || c == '\u200b' || c == '\u2060' || c == '\ufeff' ||
    (0xFE00 ≤ c.toNat && c.toNat ≤ 0xFE0F)

/-- Capital letters of the Latin, Greek and Cyrillic alphabets and full-width forms as what they
stand for in names. -/
def folded (c : Char) : Char :=
  let n := c.toNat
  if n < 128 then c.toLower
  else if (0xC0 ≤ n && n ≤ 0xDE && n != 0xD7) || (0x391 ≤ n && n ≤ 0x3AB) ||
    (0x410 ≤ n && n ≤ 0x42F) then
    Char.ofNat (n + 32)
  else if 0x400 ≤ n && n ≤ 0x40F then Char.ofNat (n + 80)
  else if (0x100 ≤ n && n ≤ 0x137 || 0x14A ≤ n && n ≤ 0x177) && n % 2 == 0 then Char.ofNat (n + 1)
  else if (0x139 ≤ n && n ≤ 0x148 || 0x179 ≤ n && n ≤ 0x17E) && n % 2 == 1 then Char.ofNat (n + 1)
  else if n == 0x178 then '\u00ff'
  else if n == 0x3002 || n == 0xFF0E || n == 0xFF61 then '.'
  else if 0xFF01 ≤ n && n ≤ 0xFF5E then (Char.ofNat (n - 0xFEE0)).toLower
  else c

/-- Characters beyond the first 128 that no name may hold: controls, surrogates' marks, blanks and
private ones. -/
def isRefused (c : Char) : Bool :=
  let n := c.toNat
  (0x80 ≤ n && n ≤ 0x9F) || n == 0xA0 || (0x2000 ≤ n && n ≤ 0x200A) || (0x2028 ≤ n && n ≤ 0x202F) ||
    n == 0x3000 ||
    (0xE000 ≤ n && n ≤ 0xF8FF) || (0xFFF9 ≤ n && n ≤ 0xFFFF)

/-- How the step between two letters of an encoded label is adapted. -/
def adapted (delta count : Nat) (isFirst : Bool) : Nat :=
  let delta := if isFirst then delta / 700 else delta / 2
  let delta := delta + delta / count
  let rec shrink : (fuel delta k : Nat) → Nat
    | 0, delta, k => k + 36 * delta / (delta + 38)
    | fuel + 1, delta, k =>
      if 455 < delta then shrink fuel (delta / 35) (k + 36) else k + 36 * delta / (delta + 38)
  shrink 32 delta 0

/-- A digit of an encoded label: letters, then decimal digits. -/
def labelDigit (n : Nat) : Char := if n < 26 then Char.ofNat (n + 97) else Char.ofNat (n - 26 + 48)

/-- From which value on a digit at a position is followed by another one. -/
def threshold (bias position : Nat) : Nat :=
  if position ≤ bias then 1 else if bias + 26 ≤ position then 26 else position - bias

def labelNumber (bias : Nat) : (fuel k q : Nat) → List Char
  | 0, _, _ => []
  | fuel + 1, k, q =>
    let t := threshold bias k
    if q < t then [labelDigit q]
    else labelDigit (t + (q - t) % (36 - t)) :: labelNumber bias fuel (k + 36) ((q - t) / (36 - t))

/-- Where the encoding of a label stands: the next code, the distance since the last one, and the
adaptation. -/
structure Encoding where
  code : Nat
  delta : Nat
  bias : Nat
  handled : Nat
  written : List Char
  deriving Inhabited

/-- Encodes every place of one code. -/
def Encoding.pass (basic : Nat) (cs : List Char) (e : Encoding) : Encoding :=
  cs.foldl (fun e c =>
    if c.toNat < e.code then { e with delta := e.delta + 1 }
    else if c.toNat = e.code then
      { e with
        delta := 0, bias := adapted e.delta (e.handled + 1) (e.handled == basic),
        handled := e.handled + 1, written := e.written ++ labelNumber e.bias 16 36 e.delta }
    else e) e

/-- Encodes the codes of a label from the smallest to the largest. -/
def Encoding.run (basic : Nat) (cs : List Char) : (codes : List Nat) → Encoding → Encoding
  | [], e => e
  | m :: codes, e =>
    let e := { e with delta := e.delta + (m - e.code) * (e.handled + 1), code := m }
    let e := e.pass basic cs
    run basic cs codes { e with delta := e.delta + 1, code := m + 1 }

/-- The codes beyond the first 128 in a label, each once, from the smallest to the largest. -/
def codesOf (cs : List Char) : List Nat :=
  let codes := ((cs.map Char.toNat).filter (128 ≤ ·)).mergeSort
  codes.foldr (fun n acc => if acc.head? == some n then acc else n :: acc) []

/-- A label in the first 128 characters. -/
def encodedLabel (label : String) : String :=
  let cs := label.toList
  if cs.all (·.toNat < 128) then label
  else
    let basic := cs.filter (·.toNat < 128)
    let start : Encoding := ⟨128, 0, 72, basic.length, if basic.isEmpty then [] else basic ++ ['-']⟩
    "xn--" ++ String.ofList (start.run basic.length cs (codesOf cs)).written

/-- Where the decoding of a label stands: the code and the place of the last character, the number
that is being read with the weight and the position of its next digit, the adaptation, and the label
so far. -/
structure Decoding where
  code : Nat
  start : Nat
  place : Nat
  weight : Nat
  position : Nat
  bias : Nat
  decoded : List Nat
  deriving Inhabited

def labelDigit? (c : Char) : Option Nat :=
  if c.isLower then some (c.toNat - 97) else if c.isDigit then some (c.toNat - 48 + 26) else none

/-- Reads one digit; the last one of a number puts a character in its place. -/
def Decoding.add (d : Decoding) (digit : Nat) : Decoding :=
  let t := threshold d.bias d.position
  let place := d.place + digit * d.weight
  if digit < t then
    let count := d.decoded.length + 1
    let code := d.code + place / count
    let at' := place % count
    ⟨code, at' + 1, at' + 1, 1, 36, adapted (place - d.start) count (d.start == 0),
      d.decoded.take at' ++ code :: d.decoded.drop at'⟩
  else { d with place, weight := d.weight * (36 - t), position := d.position + 36 }

/-- The label that letters and digits behind `xn--` stand for. -/
def decodedLabel? (encoded : List Char) : Option String := do
  let (basic, rest) := match encoded.reverse.dropWhile (· != '-') with
    | [] => ([], encoded)
    | _ :: basic => (basic.reverse, (encoded.reverse.takeWhile (· != '-')).reverse)
  let digits ← rest.mapM labelDigit?
  let d := digits.foldl Decoding.add ⟨128, 0, 0, 1, 36, 72, basic.map Char.toNat⟩
  guard (d.position == 36 && d.decoded.all fun n => decide n.isValidChar)
  return String.ofList (d.decoded.map Char.ofNat)

/-- Whether a label that says it is encoded is the encoded form of a label. -/
def isSound (label : String) : Bool :=
  if label.startsWith "xn--" then
    match decodedLabel? (label.toList.drop 4) with
    | some decoded =>
      decoded.toList.all (fun c => folded c == c && !isRefused c) && encodedLabel decoded == label
    | none => false
  else true

/-- A name in small letters of the first 128 characters. -/
def domainText (s : String) : Except UrlError String :=
  let cs := ((lossyText (percentDecoded s.toList)).toList.filter (!isIgnored ·)).map folded
  if cs.any fun c => c.toNat < 32 || forbidden.contains c || isRefused c then .error .invalidName
  else
    let labels := (String.ofList cs).splitOn "."
    if labels.all isSound then .ok (String.intercalate "." (labels.map encodedLabel))
    else .error .invalidName

/-- The host of an address on the web. -/
def parse (s : String) : Except UrlError Host :=
  if s.startsWith "[" then
    if s.endsWith "]" then ipv6Of (String.ofList (s.toList.drop 1).dropLast)
    else .error .invalidIpv6
  else do
    let name ← domainText s
    if name.isEmpty then throw .emptyHost
    if endsInNumber name then ipv4Of name else return .domain name

/-- The host under a scheme that knows nothing of hosts. -/
def parseVerbatim (s : String) : Except UrlError Host :=
  if s.startsWith "[" then parse s
  else if s.toList.any fun c =>
    c.toNat == 0 || (c != '%' && c != '\x7f' && forbidden.contains c) then
    .error .invalidCharacter
  else .ok (.verbatim (percentEncoded [] s))

end Host

end Stagewise.Http
