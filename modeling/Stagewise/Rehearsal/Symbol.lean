import Stagewise.Dag.Build
import Stagewise.Json.Access
import Stagewise.Store.Basic
/-!
# Symbols

Identifiers made in a rehearsal are written as symbols: `$dag1` is the first dag that was made,
`$dag1.2.3` the third task of its second node. Times read from the clock of a rehearsal are written
as one word.
-/

namespace Stagewise.Rehearsal

def epoch : Timestamp := ⟨1770091506, 123457⟩

def idFront : String := "da9da9da-9000-4000-8000-"

/-- The identifier of a dag, or of a task by node and place. -/
def symbolicId (dag node task : Nat) : Uuid :=
  ⟨BitVec.ofNat 128
    (0xda9da9da900040008000000000000000 + dag * 0x100000000 + node * 0x10000 + task)⟩

def freshIds (n : Nat) : FreshIds := ⟨⟨symbolicId n 0 0⟩, fun i j => ⟨symbolicId n (i + 1) (j + 1)⟩⟩

def symbolAt? (cs : List Char) : Option String :=
  if cs.take idFront.length == idFront.toList then do
    let n ← Text.natOfHex? ((cs.drop idFront.length).take 12)
    let (dag, node, task) := (n / 0x100000000, n / 0x10000 % 0x10000, n % 0x10000)
    return if node = 0 then s!"$dag{dag}" else s!"$dag{dag}.{node}.{task}"
  else none

/-- Writes symbols in the stead of identifiers; `skip` characters have been dealt with. -/
def withSymbols : (skip : Nat) → List Char → List Char
  | _, [] => []
  | skip + 1, _ :: rest => withSymbols skip rest
  | 0, c :: rest =>
    match symbolAt? (c :: rest) with
    | some symbol => symbol.toList ++ withSymbols 35 rest
    | none => c :: withSymbols 0 rest

/-- A number that characters begin with, and how many digits it has. -/
def numberAt? (cs : List Char) : Option (Nat × Nat) :=
  let digits := cs.takeWhile Char.isDigit
  (Text.natOfDigits? digits).map fun n => (n, digits.length)

/-- The node and task behind the number of a dag, and how many characters they take. -/
def taskAt? (cs : List Char) : Option (Nat × Nat × Nat) :=
  match cs with
  | '.' :: cs => do
    let (node, length) ← numberAt? cs
    match cs.drop length with
    | '.' :: cs => do
      let (task, length') ← numberAt? cs
      return (node, task, length + length' + 2)
    | _ => none
  | _ => none

/-- Whether a symbol stands for a stored dag, or for a task of one. -/
def isKnown (store : Store) (dag : Nat) (task : Option (Nat × Nat)) : Bool :=
  match store.load? (freshIds dag).dag with
  | .ok (some d) => match task with
    | none => true
    | some (i, j) => 0 < i && 0 < j && ((d.nodes[i - 1]?).any fun n => j ≤ n.tasks.length)
  | _ => false

/-- The identifier of the symbol that characters begin with, and how many characters it has. -/
def identifierAt? (store : Store) (cs : List Char) : Option (String × Nat) :=
  if cs.take 4 == "$dag".toList then do
    let (dag, length) ← numberAt? (cs.drop 4)
    match taskAt? (cs.drop (4 + length)) with
    | some (node, task, length') =>
      guard (isKnown store dag (some (node, task)))
      return ((symbolicId dag node task).text, 4 + length + length')
    | none =>
      guard (isKnown store dag none)
      return ((symbolicId dag 0 0).text, 4 + length)
  else none

/-- Writes identifiers in the stead of symbols; `skip` characters have been dealt with. -/
def withIdentifiers (store : Store) : (skip : Nat) → List Char → List Char
  | _, [] => []
  | skip + 1, _ :: rest => withIdentifiers store skip rest
  | 0, c :: rest =>
    match identifierAt? store (c :: rest) with
    | some (identifier, length) => identifier.toList ++ withIdentifiers store (length - 1) rest
    | none => c :: withIdentifiers store 0 rest

def timeNames : List String :=
  ["timestamp", "created_at", "updated_at", "started_at", "finished_at"]

def isRehearsed (s : String) : Bool :=
  (Timestamp.parse? s).any fun t =>
    epoch.seconds ≤ t.seconds && t.seconds < epoch.seconds + 20000000

/-- A value with symbols in the stead of identifiers and one word in the stead of the times of the
rehearsal. -/
def symbolized (j : Json) : Json :=
  j.mapTexts (fun name s =>
    if timeNames.contains name && isRehearsed s then "NOW"
      else String.ofList (withSymbols 0 s.toList)) ""

/-- A value with identifiers in the stead of the symbols of what is stored. -/
def resolved (store : Store) (j : Json) : Json :=
  j.mapTexts (fun _ s => String.ofList (withIdentifiers store 0 s.toList)) ""

end Stagewise.Rehearsal
