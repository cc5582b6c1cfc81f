import Stagewise.Json.Reader
import Stagewise.Json.Writer
import Stagewise.Text.Shown
/-!
# Decoding document values

What a value has to look like to stand for a word, a text, a list or a record, and what is wrong
with one that does not. A record is an object with its fields in any order, or a list of its fields
in their order. Unknown members of an object are skipped; a field that is given twice is an error.
-/

namespace Stagewise

/-- Why a value does not stand for what was expected. -/
inductive DecodeError where
  | invalidType (found : Json) (expected : String)
  | invalidValue (found : Json) (expected : String)
  | invalidLength (length : Nat) (expected : String)
  | missingField (name : String)
  | duplicateField (name : String)
  | unknownVariant (name : String)
  | malformed (what : String)
  | unreadable
  deriving Repr, Inhabited

namespace DecodeError

/-- What a value is called in messages. -/
def called : Json → String
  | .null => "null"
  | .bool b => s!"boolean `{b}`"
  | .int n => s!"integer `{Text.ofInt n}`"
  | .real x => s!"floating point `{x.positional}`"
  | .text s => "string " ++ Text.shownQuoted s
  | .list _ => "sequence"
  | .object _ => "map"
  | .unreadable => "unreadable value"

/-- The wording of an error. -/
def message : DecodeError → String
  | .invalidType found expected => s!"invalid type: {called found}, expected {expected}"
  | .invalidValue found expected => s!"invalid value: {called found}, expected {expected}"
  | .invalidLength length expected => s!"invalid length {length}, expected {expected}"
  | .missingField name => s!"missing field `{name}`"
  | .duplicateField name => s!"duplicate field `{name}`"
  | .unknownVariant name => s!"unknown variant `{name}`"
  | .malformed what => what
  | .unreadable => "unreadable value"

end DecodeError

abbrev Decoded (α : Type) := Except DecodeError α

/-- Values that can be written as documents and read back. -/
class Document (α : Type) where
  toJson : α → Json
  ofJson : Json → Decoded α

export Document (toJson)

namespace Decode

/-- A word between `lo` and `hi`. -/
def word (lo hi : Int) (name : String) : Json → Decoded Int
  | .int n => if lo ≤ n ∧ n ≤ hi then .ok n else .error (.invalidValue (.int n) name)
  | .unreadable => .error .unreadable
  | j => .error (.invalidType j name)

/-- An unsigned word of `bits` bits. -/
def unsigned (bits : Nat) (j : Json) : Decoded Nat :=
  (word 0 ((Nat.pow 2 bits : Nat) - 1) s!"u{bits}" j).map Int.toNat

/-- A signed word of `bits` bits. -/
def signed (bits : Nat) (j : Json) : Decoded Int :=
  word (-(Nat.pow 2 (bits - 1) : Nat)) ((Nat.pow 2 (bits - 1) : Nat) - 1) s!"i{bits}" j

def bool : Json → Decoded Bool
  | .bool b => .ok b
  | .unreadable => .error .unreadable
  | j => .error (.invalidType j "a boolean")

def text : Json → Decoded String
  | .text s => .ok s
  | .unreadable => .error .unreadable
  | j => .error (.invalidType j "a string")

def list {α : Type} (item : Json → Decoded α) : Json → Decoded (List α)
  | .list items => items.mapM item
  | .unreadable => .error .unreadable
  | j => .error (.invalidType j "a sequence")

def optional {α : Type} (value : Json → Decoded α) : Json → Decoded (Option α)
  | .null => .ok none
  | j => (value j).map some

/-- A free value: any value that can be used as a whole. -/
def free (j : Json) : Decoded Json :=
  if j.isReadable then .ok j.normalize else .error .unreadable

def fields (j : Json) : Decoded Fields :=
  match j with
  | .object members =>
    if j.isReadable then .ok (Json.normalizeMembers members) else .error .unreadable
  | .unreadable => .error .unreadable
  | j => .error (.invalidType j "a map")

/-- Named values of one kind, sorted by name, the last of each name. -/
def table {α : Type} (value : Json → Decoded α) : Json → Decoded (Named α)
  | .object members => do
    let ms ← members.mapM fun (k, j) => (value j).map fun v => (k, v)
    return .ofList ms
  | .unreadable => .error .unreadable
  | j => .error (.invalidType j "a map")

/-- One of several named cases: its name, or an object that holds only its name with null. -/
def case {α : Type} (cases : List (String × α)) (what : String) (j : Json) : Decoded α :=
  match j with
  | .text s => named s
  | .object [(s, .null)] => named s
  | .object ((_, .unreadable) :: _) | .unreadable => .error .unreadable
  | .object _ => .error (.malformed s!"expected one case of {what}")
  | j => .error (.invalidType j s!"enum {what}")
where
  named (s : String) : Decoded α :=
    match cases.lookup s with
    | some a => .ok a
    | none => .error (.unknownVariant s)

/-- The fields of a record as they are given, in the order of their names. -/
structure Given where
  record : String
  values : List (String × Option Json)
  isList : Bool

/-- The members of an object that are fields, in the order of the names; a field given twice is an
error. -/
def membersNamed (names : List String) (members : List (String × Json)) :
    Decoded (List (String × Option Json)) :=
  names.mapM fun name =>
    match members.filter (·.1 == name) with
    | [] => .ok (name, none)
    | [(_, v)] => .ok (name, some v)
    | _ => .error (.duplicateField name)

/-- A record built from its fields, which stand in an object or, in the order of the names, in a
list. -/
def record {α : Type} (name : String) (names : List String) (build : Given → Decoded α) :
    Json → Decoded α
  | .object members => do
    let values ← membersNamed names members
    build ⟨name, values, false⟩
  | .list items => do
    let a ← build ⟨name, names.zip (items.map some ++ List.replicate names.length none), true⟩
    if names.length < items.length then
      throw (.invalidLength items.length "fewer elements in array")
    return a
  | .unreadable => .error .unreadable
  | j => .error (.invalidType j s!"struct {name}")

namespace Given

/-- What is wrong when the field `name` is not there. -/
def absent (g : Given) (name : String) : DecodeError :=
  if g.isList then
    .invalidLength (g.values.takeWhile (·.1 != name)).length
      s!"struct {g.record} with {g.values.length} elements"
  else .missingField name

def value? (g : Given) (name : String) : Option Json := (g.values.lookup name).join

def peek {α : Type} (g : Given) (name : String) (decode : Json → Decoded α) : Decoded (Option α) :=
  match g.value? name with
  | some j => (decode j).map some
  | none => .ok none

def required {α : Type} (g : Given) (name : String) (decode : Json → Decoded α) : Decoded α :=
  match g.value? name with
  | some j => decode j
  | none => .error (g.absent name)

/-- A field with a value of its own when it is not given. -/
def withDefault {α : Type} (g : Given) (name : String) (decode : Json → Decoded α) (value : α) :
    Decoded α :=
  match g.value? name with
  | some j => decode j
  | none => .ok value

/-- A field that may be null, and in an object may be left out. -/
def optional {α : Type} (g : Given) (name : String) (decode : Json → Decoded α) :
    Decoded (Option α) :=
  match g.value? name with
  | some j => Decode.optional decode j
  | none => if g.isList then .error (g.absent name) else .ok none

end Given

end Decode

instance : Document Json where
  toJson j := j
  ofJson := Decode.free

def Json.ofOption {α : Type} (f : α → Json) : Option α → Json
  | none => .null
  | some a => f a

def Document.readText? {α : Type} [Document α] (s : String) : Option α :=
  (Json.read? s).bind fun j => (Document.ofJson j).toOption

def Document.text {α : Type} [Document α] (a : α) : String := (toJson a).compact

end Stagewise
