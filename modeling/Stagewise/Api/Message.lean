import Stagewise.Dispatch.Message
/-!
# Messages between clients and agents

The bodies of requests and answers that are not records of a dag themselves.
-/

namespace Stagewise

/-- An operator command on its way. -/
structure OperatorRequest where
  operator : Operator
  deriving DecidableEq, Repr, Inhabited

instance : Document OperatorRequest where
  toJson r := .object [("operator", toJson r.operator)]
  ofJson := Decode.record "DagOperatorRequest" ["operator"] fun g => do
    let operator ← g.required "operator" Document.ofJson
    return ⟨operator⟩

/-- An operation type and what operators may do to its tasks. -/
structure OperationInfo where
  typeName : String
  capabilities : Capabilities
  deriving DecidableEq, Repr, Inhabited

instance : Document OperationInfo where
  toJson i := .object [("type_name", .text i.typeName), ("capabilities", toJson i.capabilities)]
  ofJson := Decode.record "OperationInfo" ["type_name", "capabilities"] fun g => do
    let typeName ← g.required "type_name" Decode.text
    let capabilities ← g.required "capabilities" Document.ofJson
    return ⟨typeName, capabilities⟩

/-- How an agent is, and under which address it acts. -/
structure Health where
  status : String
  agent : String
  deriving DecidableEq, Repr, Inhabited

instance : Document Health where
  toJson h := .object [("status", .text h.status), ("agent", .text h.agent)]
  ofJson := Decode.record "HealthCheck" ["status", "agent"] fun g => do
    let status ← g.required "status" Decode.text
    let agent ← g.required "agent" Decode.text
    return ⟨status, agent⟩

/-- An answer that holds a list under one name. -/
structure Listing (α : Type) where
  items : List α

namespace Listing

def toJson {α : Type} [Document α] (name : String) (l : Listing α) : Json :=
  .object [(name, .list (l.items.map Document.toJson))]

def ofJson {α : Type} [Document α] (name : String) : Json → Decoded (List α) :=
  Decode.record "Listing" [name] fun g => g.required name (Decode.list Document.ofJson)

end Listing

end Stagewise
