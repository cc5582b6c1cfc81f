import Stagewise.Json.Decode
/-!
# Identifiers

Identifiers of 128 bits, written as 32 lower-case hexadecimal digits in five groups. They are read
in either case, with or without hyphens, between braces, or behind `urn:uuid:`.
-/

namespace Stagewise

/-- An identifier of 128 bits. -/
structure Uuid where
  bits : BitVec 128
  deriving DecidableEq, Hashable, Inhabited

namespace Uuid

def digits (u : Uuid) : List Char := Text.hexDigits 32 u.bits.toNat

/-- Puts hyphens behind the digits 8, 12, 16 and 20. -/
def hyphenated (cs : List Char) : List Char :=
  cs.take 8 ++ '-' :: ((cs.drop 8).take 4 ++ '-' :: ((cs.drop 12).take 4 ++ '-' ::
    ((cs.drop 16).take 4 ++ '-' :: cs.drop 20)))

def text (u : Uuid) : String := String.ofList (hyphenated u.digits)

instance : ToString Uuid := ⟨text⟩
instance : Repr Uuid := ⟨fun u _ => u.text⟩

def ofDigits? (cs : List Char) : Option Uuid :=
  if cs.length = 32 then (Text.natOfHex? cs).map fun n => ⟨BitVec.ofNat 128 n⟩ else none

/-- Reads digits with hyphens in the four places where they are written. -/
def ofHyphenated? (cs : List Char) : Option Uuid :=
  if cs.length = 36 ∧ cs[8]? = some '-' ∧ cs[13]? = some '-' ∧ cs[18]? = some '-' ∧
    cs[23]? = some '-' then
    ofDigits? (cs.take 8 ++ (cs.drop 9).take 4 ++ (cs.drop 14).take 4 ++ (cs.drop 19).take 4
      ++ cs.drop 24)
  else none

/-- Reads an identifier in any of its forms. -/
def parse? (s : String) : Option Uuid :=
  let cs := s.toList
  if cs.length = 32 then ofDigits? cs
  else if cs.length = 36 then ofHyphenated? cs
  else if cs.length = 38 ∧ cs.head? = some '\x7b' ∧ cs.getLast? = some '\x7d' then
    ofHyphenated? ((cs.drop 1).take 36)
  else if cs.length = 45 ∧ cs.take 9 = "urn:uuid:".toList then ofHyphenated? (cs.drop 9)
  else none

instance : Document Uuid where
  toJson u := .text u.text
  ofJson j := do
    let s ← Decode.text j
    match parse? s with
    | some u => return u
    | none => throw (.malformed s!"invalid identifier {s}")

end Uuid

/-- The identifier of a dag, the same on every agent that takes part in it. -/
structure DagId where
  uuid : Uuid
  deriving DecidableEq, Hashable, Inhabited

/-- The identifier of a task. -/
structure TaskId where
  uuid : Uuid
  deriving DecidableEq, Hashable, Inhabited

instance : ToString DagId := ⟨fun i => i.uuid.text⟩
instance : ToString TaskId := ⟨fun i => i.uuid.text⟩
instance : Repr DagId := ⟨fun i _ => i.uuid.text⟩
instance : Repr TaskId := ⟨fun i _ => i.uuid.text⟩

def DagId.parse? (s : String) : Option DagId := (Uuid.parse? s).map DagId.mk

def TaskId.parse? (s : String) : Option TaskId := (Uuid.parse? s).map TaskId.mk

instance : Document DagId where
  toJson i := toJson i.uuid
  ofJson j := (Document.ofJson j).map DagId.mk

instance : Document TaskId where
  toJson i := toJson i.uuid
  ofJson j := (Document.ofJson j).map TaskId.mk

end Stagewise
