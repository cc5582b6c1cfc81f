import Stagewise.Text.Digits
/-!
# Percent encoding

Bytes written as a percent sign and two hexadecimal digits. What has to be encoded depends on the
place; controls and everything beyond the first 128 characters always has to be.
-/

namespace Stagewise.Http

def bytesOf (s : String) : List UInt8 := s.toUTF8.toList

/-- A byte as a percent sign and two capital digits. -/
def encodedByte (b : UInt8) : List Char :=
  ['%', (Text.hexDigit (b.toNat / 16)).toUpper, (Text.hexDigit b.toNat).toUpper]

def isAlwaysEncoded (c : Char) : Bool := c.toNat < 32 || 127 ≤ c.toNat

/-- A text with the characters encoded that always have to be, and those of a set. -/
def percentEncoded (set : List Char) (s : String) : String :=
  String.ofList (s.toList.flatMap fun c =>
    if isAlwaysEncoded c || set.contains c then (bytesOf c.toString).flatMap encodedByte else [c])

/-- The bytes that characters stand for. -/
def percentDecoded : List Char → List UInt8
  | '%' :: a :: b :: rest =>
    match Text.hexDigit? a, Text.hexDigit? b with
    | some x, some y => UInt8.ofNat (16 * x + y) :: percentDecoded rest
    | _, _ => bytesOf "%" ++ percentDecoded (a :: b :: rest)
  | c :: rest => bytesOf c.toString ++ percentDecoded rest
  | [] => []

/-- The text that bytes stand for, if they stand for one. -/
def textOfBytes? (bytes : List UInt8) : Option String := String.fromUTF8? ⟨bytes.toArray⟩

/-- How many bytes a text needs for the character that a byte begins, and the least code of so many
bytes. -/
def sequenceLength (b : UInt8) : Option (Nat × Nat × Nat) :=
  if b < 0x80 then some (1, b.toNat, 0)
  else if 0xC2 ≤ b && b < 0xE0 then some (2, b.toNat % 32, 0x80)
  else if 0xE0 ≤ b && b < 0xF0 then some (3, b.toNat % 16, 0x800)
  else if 0xF0 ≤ b && b < 0xF5 then some (4, b.toNat % 8, 0x10000)
  else none

/-- The character at the front of bytes with its length, or the length of the longest front that
begins one. -/
def takeChar (bytes : List UInt8) : Option Char × Nat :=
  match bytes with
  | [] => (none, 0)
  | b :: rest =>
    match sequenceLength b with
    | none => (none, 1)
    | some (count, start, least) =>
      let step (acc : Nat × Nat) (b : UInt8) : Nat × Nat := (acc.1 * 64 + b.toNat % 64, acc.2 + 1)
      let followers := (rest.take (count - 1)).takeWhile fun b => 0x80 ≤ b && b < 0xC0
      let isPossible (n : Nat) : Bool :=
        let (code, seen) := (followers.take n).foldl step (start, 1)
        let low := code * Nat.pow 64 (count - seen)
        let high := low + Nat.pow 64 (count - seen) - 1
        least ≤ high && low ≤ 0x10FFFF && !(0xD800 ≤ low && high ≤ 0xDFFF)
      let usable :=
        (List.range (followers.length + 1)).foldl (fun m n => if isPossible n then n else m) 0
      if usable + 1 = count then (some (Char.ofNat ((followers.foldl step (start, 1)).1)), count)
      else (none, usable + 1)

/-- The text that bytes stand for, with a mark in the stead of what stands for nothing. -/
def lossyChars : (fuel : Nat) → List UInt8 → List Char
  | 0, _ => []
  | _ + 1, [] => []
  | fuel + 1, bytes =>
    let (c, length) := takeChar bytes
    c.getD '\ufffd' :: lossyChars fuel (bytes.drop length)

/-- The text that bytes stand for, with a mark in the stead of what stands for nothing. -/
def lossyText (bytes : List UInt8) : String := String.ofList (lossyChars bytes.length bytes)

/-- The pairs of a query: joined by ampersands, names and values by equals signs; a plus sign is a
blank. -/
def queryPairs (query : String) : List (String × String) :=
  let decoded (cs : List Char) : String :=
    lossyText (percentDecoded (cs.map fun c => if c == '+' then ' ' else c))
  let pairs := (query.splitOn "&").filter fun p => !p.isEmpty
  pairs.map fun p =>
    let cs := p.toList
    let name := cs.takeWhile (· != '=')
    (decoded name, decoded ((cs.drop name.length).drop 1))

end Stagewise.Http
