import Stagewise.Dag.Document
/-!
# Specifications

What is submitted: the nodes and tasks that a dag is built from.
-/

namespace Stagewise

/-- A task to be made. -/
structure TaskSpec where
  name : String
  typeName : String
  agent : Agent
  params : Fields
  deriving Repr, Inhabited

/-- A node to be made. -/
structure NodeSpec where
  name : String
  participants : List Agent
  tasks : List TaskSpec
  deriving Repr, Inhabited

/-- A dag to be made. -/
structure DagSpec where
  name : String
  kind : DagKind
  nodes : List NodeSpec
  deriving Repr, Inhabited

def TaskSpec.new (name typeName : String) (agent : Agent) : TaskSpec :=
  ⟨name, typeName, agent, .empty⟩

def TaskSpec.param (t : TaskSpec) (key : String) (value : Json) : TaskSpec :=
  { t with params := t.params.insert key value }

instance : Document TaskSpec where
  toJson t :=
    .object [("name", .text t.name), ("type_name", .text t.typeName), ("agent", toJson t.agent),
      ("params", .object t.params.rows)]
  ofJson := Decode.record "TaskSpec" ["name", "type_name", "agent", "params"] fun g => do
    let name ← g.required "name" Decode.text
    let typeName ← g.required "type_name" Decode.text
    let agent ← g.required "agent" Document.ofJson
    let params ← g.withDefault "params" Decode.fields .empty
    return { name, typeName, agent, params }

instance : Document NodeSpec where
  toJson n := .object [("name", .text n.name), ("participants", .list (n.participants.map toJson)),
    ("tasks", .list (n.tasks.map toJson))]
  ofJson := Decode.record "NodeSpec" ["name", "participants", "tasks"] fun g => do
    let name ← g.required "name" Decode.text
    let participants ← g.withDefault "participants" (Decode.list Document.ofJson) []
    let tasks ← g.required "tasks" (Decode.list Document.ofJson)
    return { name, participants, tasks }

instance : Document DagSpec where
  toJson d :=
    .object [("name", .text d.name), ("kind", toJson d.kind), ("nodes", .list (d.nodes.map toJson))]
  ofJson := Decode.record "DagSpec" ["name", "kind", "nodes"] fun g => do
    let name ← g.required "name" Decode.text
    let kind ← g.withDefault "kind" Document.ofJson DagKind.standard
    let nodes ← g.required "nodes" (Decode.list Document.ofJson)
    return { name, kind, nodes }

end Stagewise
