import Stagewise.Operation.Program
import Stagewise.Table
/-!
# The registry of operation types

The operation types an agent knows, each under its own name.
-/

namespace Stagewise

/-- The operation types that are known, by name. -/
structure Registry where
  operations : Named Operation
  named : ∀ row ∈ operations.rows, row.1 = row.2.typeName

namespace Registry

def empty : Registry := ⟨.empty, nofun⟩

def get? (r : Registry) (name : String) : Option Operation := r.operations.get? name

def contains (r : Registry) (name : String) : Bool := (r.get? name).isSome

/-- The registry with one more type, whose name must be new. -/
def register (r : Registry) (o : Operation) : EngineResult Registry :=
  if r.contains o.typeName then .error (.duplicateType o.typeName)
  else
    .ok ⟨r.operations.insert o.typeName o, fun row hrow => by
      rcases Table.mem_insertRow hrow with rfl | hrow
      · rfl
      · exact r.named row hrow⟩

def ofList (operations : List Operation) : EngineResult Registry :=
  operations.foldlM register empty

/-- The types of a list that has them in the order of their names. -/
def ofSorted (operations : List Operation)
    (sorted : (operations.map (·.typeName)).Pairwise (· < ·)) : Registry :=
  ⟨⟨operations.map fun o => (o.typeName, o), List.pairwise_map.2 (List.pairwise_map.1 sorted)⟩,
    List.forall_mem_map.2 fun _ _ => rfl⟩

def names (r : Registry) : List String := r.operations.rows.map (·.1)

def size (r : Registry) : Nat := r.operations.rows.length

def find (r : Registry) (name : String) : EngineResult Operation :=
  match r.get? name with
  | some o => .ok o
  | none => .error (.unknownType name)

def capabilities (r : Registry) (name : String) : EngineResult Capabilities :=
  (r.find name).map (·.capabilities)

end Registry

end Stagewise
