import FlowEngine.Error
import FlowEngine.Run.Codec
/-!
# `FlowEngine.Ledger.Record` — runs and steps as they are stored

A stored run also keeps the event that started it.  Fields that are not set are left out when a
record is written; when one is read they may just as well be null, and the end and the error also an
empty text, as hosted stores fill them in.  Identifiers belong to the store: they are never written
and always read.
-/

namespace FlowEngine

def Run.toRecord (run : Run) (inputEvent : Json) : Json :=
  .record ([("flow_id", .string run.flowId), ("status", .string run.status.text),
      ("trigger_type", .string run.triggerType.text), ("started_at", run.startedAt.toJson)] ++
    Json.member? "finished_at" (run.finishedAt.map Timestamp.toJson) ++
    Json.member? "error" (run.error.map .string) ++
    [("test_mode", .bool run.testMode), ("input_event", inputEvent)])

/-- The fields of a run that change in the course of its life. -/
def Run.toPatch (run : Run) : Json :=
  .record ([("status", .string run.status.text)] ++
    Json.member? "finished_at" (run.finishedAt.map Timestamp.toJson) ++
    Json.member? "error" (run.error.map .string))

def RunStep.toRecord (step : RunStep) : Json :=
  .record ([("run_id", .string step.runId), ("node_id", .string step.nodeId),
      ("node_type", .string step.nodeType), ("status", .string step.status.text),
      ("started_at", step.startedAt.toJson)] ++
    Json.member? "finished_at" (step.finishedAt.map Timestamp.toJson) ++
    Json.member? "input" step.input ++ Json.member? "output" step.output ++
    Json.member? "error" (step.error.map .string))

/-- The fields of a step that its completion sets. -/
def RunStep.toPatch (step : RunStep) : Json :=
  .record ([("status", .string step.status.text)] ++
    Json.member? "finished_at" (step.finishedAt.map Timestamp.toJson) ++
    Json.member? "output" step.output ++ Json.member? "error" (step.error.map .string))

def Run.ofRecord? (record : Json) : Option Run := do
  let [id, flowId, status, triggerType, startedAt, finishedAt, error, testMode, inputEvent] ←
    (Document.ofJson record).fields?
      [["id"], ["flow_id"], ["status"], ["trigger_type"], ["started_at"], ["finished_at"],
        ["error"], ["test_mode"], ["input_event"]] | none
  let id ← Document.defaulted "" Document.text? id
  let flowId ← Document.required Document.text? flowId
  let status ← Document.required RunStatus.decode? status
  let triggerType ← Document.required TriggerType.decode? triggerType
  let startedAt ← Document.required Timestamp.decode? startedAt
  let finishedAt ← Document.settable Timestamp.decode? finishedAt
  let error ← Document.settable Document.text? error
  let testMode ← Document.defaulted false Document.bool? testMode
  let _ ← Document.optional Document.value? inputEvent
  some { id, flowId, status, triggerType, startedAt, finishedAt, error, testMode }

def RunStep.ofRecord? (record : Json) : Option RunStep := do
  let [id, runId, nodeId, nodeType, status, startedAt, finishedAt, input, output, error] ←
    (Document.ofJson record).fields?
      [["id"], ["run_id"], ["node_id"], ["node_type"], ["status"], ["started_at"],
        ["finished_at"], ["input"], ["output"], ["error"]] | none
  let id ← Document.defaulted "" Document.text? id
  let runId ← Document.required Document.text? runId
  let nodeId ← Document.required Document.text? nodeId
  let nodeType ← Document.required Document.text? nodeType
  let status ← Document.required StepStatus.decode? status
  let startedAt ← Document.required Timestamp.decode? startedAt
  let finishedAt ← Document.settable Timestamp.decode? finishedAt
  let input ← Document.optional Document.value? input
  let output ← Document.optional Document.value? output
  let error ← Document.settable Document.text? error
  some { id, runId, nodeId, nodeType, status, startedAt, finishedAt, input, output, error }

/-- The identifier that the store has given a record. -/
def Json.recordId (collection : String) (record : Json) : Except StoreError String :=
  match record.get? "id" with
  | some (.string id) => .ok id
  | _ => .error (.malformed collection "record has no id")

/-- A record read, or the error of one that is of the wrong shape. -/
def Json.readRecord {α : Type} (read : Json → Option α) (collection : String) (record : Json) :
    Except StoreError α :=
  match read record with
  | some value => .ok value
  | none => .error (.malformed collection wrongShape)

/-- Records read, up to the first of the wrong shape. -/
def Json.readRecords {α : Type} (read : Json → Option α) (collection : String) :
    List Json → Except StoreError (List α)
  | [] => .ok []
  | record :: rest =>
    match Json.readRecord read collection record, Json.readRecords read collection rest with
    | .ok value, .ok values => .ok (value :: values)
    | .error e, _ => .error e
    | _, .error e => .error e

end FlowEngine
