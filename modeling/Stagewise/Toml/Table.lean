import Stagewise.Json.Basic
/-!
# Tables of configuration files

What the lines of a file build up. A table that stands only on the way to another one, or that
dotted keys made, may still be added to; a table that has been defined may not be defined again. Of
a list of tables the last one is added to.
-/

namespace Stagewise.Toml

/-- Something under a key: a closed value, a table, or a list of tables. A table knows whether it
was only passed through so far, and whether dotted keys made it. -/
inductive Item where
  | value (j : Json)
  | table (isPassed isDotted : Bool) (members : List (String × Item))
  | tables (items : List (List (String × Item)))
  deriving Inhabited

/-- The things in a table by key, in the order in which they came. -/
abbrev Members := List (String × Item)

namespace Item

mutual

def toJson : Item → Json
  | .value j => j
  | .table _ _ members => .object (membersJson members)
  | .tables items => .list (itemsJson items)

def membersJson : List (String × Item) → List (String × Json)
  | [] => []
  | (k, i) :: rest => (k, toJson i) :: membersJson rest

def itemsJson : List (List (String × Item)) → List Json
  | [] => []
  | ms :: rest => .object (membersJson ms) :: itemsJson rest

end

end Item

namespace Members

def find? (key : String) (members : Members) : Option Item := members.lookup key

def put (key : String) (item : Item) (members : Members) : Members :=
  match members with
  | [] => [(key, item)]
  | (k, i) :: rest => if k = key then (k, item) :: rest else (k, i) :: put key item rest

/-- Changes the table at the end of a path. A table that is not there is made; with `dotted` a table
that has been defined is not passed through. The change is told whether dotted keys made the
table. -/
def change? (dotted : Bool) (f : Bool → Members → Option Members) :
    (path : List String) → (isDotted : Bool) → Members → Option Members
  | [], isDotted, members => f isDotted members
  | k :: path, _, members =>
    match members.find? k with
    | none => do
      let inner ← change? dotted f path dotted []
      return members.put k (.table true dotted inner)
    | some (.value _) => none
    | some (.table isPassed isDotted inner) =>
      if dotted && !isPassed then none
      else do
        let inner ← change? dotted f path isDotted inner
        return members.put k (.table isPassed isDotted inner)
    | some (.tables items) => do
      let last ← items.getLast?
      let last ← change? dotted f path false last
      return members.put k (.tables (items.dropLast ++ [last]))

/-- Puts a value under a key that is free. A key without dots goes into a table that dotted keys did
not make, one with dots into a table that they did. -/
def define? (path : List String) (key : String) (value : Json) (isDotted : Bool)
    (members : Members) :
    Option Members :=
  change? true (fun isDotted members =>
    if isDotted == path.isEmpty then none
    else if (members.find? key).isSome then none
    else some (members ++ [(key, .value value)])) path isDotted members

/-- Begins a table, which may only have been passed through before. -/
def beginTable? (path : List String) (key : String) (members : Members) : Option Members :=
  change? false (fun _ members =>
    match members.find? key with
    | none => some (members ++ [(key, .table false false [])])
    | some (.table true false inner) => some (members.put key (.table false false inner))
    | some _ => none) path false members

def beginItem? (path : List String) (key : String) (members : Members) : Option Members :=
  change? false (fun _ members =>
    match members.find? key with
    | none => some (members ++ [(key, .tables [[]])])
    | some (.tables items) => some (members.put key (.tables (items ++ [[]])))
    | some _ => none) path false members

end Members

end Stagewise.Toml
