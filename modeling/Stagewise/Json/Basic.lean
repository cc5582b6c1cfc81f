import Stagewise.Json.Decimal
import Stagewise.Table
/-!
# Document values

The values that requests, answers, stored records and journal lines are written in. The members of
an object are kept in the order in which they stand in a text; `Json.normalize` gives the form in
which free values are kept: members sorted by name, and of two members with one name the later one.
-/

namespace Stagewise

/-- A document value. `unreadable` stands for a part of a text that may be skipped but not used: a
fraction beyond the doubles, a text with half of a surrogate pair, an object in which a member has
such a name, or a list or object nested too deeply. -/
inductive Json where
  | null
  | bool (b : Bool)
  | int (n : Int)
  | real (x : Decimal)
  | text (s : String)
  | list (items : List Json)
  | object (members : List (String × Json))
  | unreadable
  deriving Repr, Inhabited

abbrev Fields := Named Json

namespace Json

/-- The value of a member of an object, the first of that name. -/
def get? (key : String) : Json → Option Json
  | .object members => members.lookup key
  | _ => none

mutual

/-- The value with the members of every object sorted by name and each name kept once, with its last
value. -/
def normalize : Json → Json
  | .list items => .list (normalizeList items)
  | .object members => .object (normalizeMembers members).rows
  | j => j

def normalizeList : List Json → List Json
  | [] => []
  | j :: rest => normalize j :: normalizeList rest

def normalizeMembers : List (String × Json) → Fields
  | [] => .empty
  | (k, v) :: rest =>
    let fs := normalizeMembers rest
    match fs.get? k with
    | some _ => fs
    | none => fs.insert k (normalize v)

end

mutual

def isReadable : Json → Bool
  | .unreadable => false
  | .list items => isReadableList items
  | .object members => isReadableMembers members
  | _ => true

def isReadableList : List Json → Bool
  | [] => true
  | j :: rest => isReadable j && isReadableList rest

def isReadableMembers : List (String × Json) → Bool
  | [] => true
  | (_, v) :: rest => isReadable v && isReadableMembers rest

end

mutual

/-- How many lists and objects are nested in one another. -/
def depth : Json → Nat
  | .list items => depthList items + 1
  | .object members => depthMembers members + 1
  | _ => 0

def depthList : List Json → Nat
  | [] => 0
  | j :: rest => max (depth j) (depthList rest)

def depthMembers : List (String × Json) → Nat
  | [] => 0
  | (_, v) :: rest => max (depth v) (depthMembers rest)

end

end Json

end Stagewise
