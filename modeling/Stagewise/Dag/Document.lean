import Stagewise.Dag.Basic
/-!
# Dags as documents

The written form of tasks, nodes and dags, in which they are stored and sent.
-/

namespace Stagewise

instance : Document DagKind where
  toJson k := .text k.text
  ofJson := Decode.case ([DagKind.standard, .upgrade].map fun k => (k.text, k)) "DagKind"

instance : Document Task where
  toJson t := .object [("id", toJson t.id), ("name", .text t.name), ("type_name", .text t.typeName),
    ("context", toJson t.context), ("capabilities", toJson t.capabilities),
    ("status", toJson t.status),
    ("agent_results", .object (t.agentResults.rows.map fun (a, s) => (a, toJson s))),
    ("started_at", Json.ofOption toJson t.startedAt),
    ("finished_at", Json.ofOption toJson t.finishedAt)]
  ofJson := Decode.record "Task" ["id", "name", "type_name", "context", "capabilities", "status",
    "agent_results", "started_at", "finished_at"] fun g => do
    let id ← g.required "id" Document.ofJson
    let name ← g.required "name" Decode.text
    let typeName ← g.required "type_name" Decode.text
    let context ← g.required "context" Document.ofJson
    let capabilities ← g.required "capabilities" Document.ofJson
    let status ← g.required "status" Document.ofJson
    let agentResults ← g.withDefault "agent_results" (Decode.table Document.ofJson) .empty
    let startedAt ← g.optional "started_at" Document.ofJson
    let finishedAt ← g.optional "finished_at" Document.ofJson
    return { id, name, typeName, context, capabilities, status, agentResults, startedAt,
             finishedAt }

instance : Document Node where
  toJson n := .object [("name", .text n.name), ("participants", .list (n.participants.map toJson)),
    ("tasks", .list (n.tasks.map toJson))]
  ofJson := Decode.record "Node" ["name", "participants", "tasks"] fun g => do
    let name ← g.required "name" Decode.text
    let participants ← g.withDefault "participants" (Decode.list Document.ofJson) []
    let tasks ← g.required "tasks" (Decode.list Document.ofJson)
    return { name, participants, tasks }

instance : Document Dag where
  toJson d := .object [("id", toJson d.id), ("name", .text d.name), ("kind", toJson d.kind),
    ("nodes", .list (d.nodes.map toJson)), ("stage", .int d.stage), ("max_stage", .int d.maxStage),
    ("status", toJson d.status), ("operator", toJson d.operator), ("version", .int d.version),
    ("created_at", toJson d.createdAt), ("updated_at", toJson d.updatedAt)]
  ofJson :=
    Decode.record "Dag" ["id", "name", "kind", "nodes", "stage", "max_stage", "status",
      "operator", "version", "created_at", "updated_at"] fun g => do
    let id ← g.required "id" Document.ofJson
    let name ← g.required "name" Decode.text
    let kind ← g.withDefault "kind" Document.ofJson DagKind.standard
    let nodes ← g.required "nodes" (Decode.list Document.ofJson)
    let stage ← g.required "stage" (Decode.unsigned 64)
    let maxStage ← g.required "max_stage" (Decode.unsigned 64)
    let status ← g.required "status" Document.ofJson
    let operator ← g.required "operator" Document.ofJson
    let version ← g.withDefault "version" (Decode.unsigned 64) 0
    let createdAt ← g.required "created_at" Document.ofJson
    let updatedAt ← g.required "updated_at" Document.ofJson
    return { id, name, kind, nodes, stage, maxStage, status, operator, version,
             createdAt, updatedAt }

end Stagewise
