import Stagewise.Json.Basic
/-!
# Members of free values

What stands under a name of a value that has no shape of its own. A member that is missing counts as
null.
-/

namespace Stagewise.Json

/-- The value of a member, null when it is missing. -/
def field (j : Json) (key : String) : Json := (j.get? key).getD .null

def asText? : Json → Option String
  | .text s => some s
  | _ => none

/-- The number of a whole number that is not negative. -/
def asNat? : Json → Option Nat
  | .int (.ofNat n) => some n
  | _ => none

def asList : Json → List Json
  | .list items => items
  | _ => []

def asMembers : Json → List (String × Json)
  | .object members => members
  | _ => []

/-- The texts among the items of a list, or a single text. -/
def asTexts : Json → List String
  | .text s => [s]
  | j => j.asList.filterMap asText?

def textAt? (j : Json) (key : String) : Option String := (j.field key).asText?

/-- The text under a name, empty when there is none. -/
def textAt (j : Json) (key : String) : String := (j.textAt? key).getD ""

def natAt? (j : Json) (key : String) : Option Nat := (j.field key).asNat?

def flagAt (j : Json) (key : String) : Bool :=
  match j.field key with
  | .bool b => b
  | _ => false

def itemsAt (j : Json) (key : String) : List Json := (j.field key).asList

mutual

/-- The value with its texts and names changed. A text is changed along with the name of the member
that it is the value of; elsewhere that name is empty. -/
def mapTexts (f : (name text : String) → String) (name : String) : Json → Json
  | .text s => .text (f name s)
  | .list items => .list (mapTextsList f items)
  | .object members => .object (mapTextsMembers f members)
  | j => j

def mapTextsList (f : (name text : String) → String) : List Json → List Json
  | [] => []
  | j :: rest => mapTexts f "" j :: mapTextsList f rest

def mapTextsMembers (f : (name text : String) → String) :
    List (String × Json) → List (String × Json)
  | [] => []
  | (k, v) :: rest => (f "" k, mapTexts f k v) :: mapTextsMembers f rest

end

end Stagewise.Json
