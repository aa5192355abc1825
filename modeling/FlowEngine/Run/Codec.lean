import FlowEngine.Flow.Codec
import FlowEngine.Run.Basic
/-!
# `FlowEngine.Run.Codec` — runs and steps as data

The form in which runs and steps are handed to callers: absent fields are left out, moments are
written as text.  The form in which they are stored is in `FlowEngine.Ledger.Record`.
-/

namespace FlowEngine

def Timestamp.toJson (t : Timestamp) : Json := .string t.text

def Timestamp.decode? (d : Document) : Option Timestamp := d.text?.bind Timestamp.parse?

def RunStatus.decode? (d : Document) : Option RunStatus := d.choice?.bind RunStatus.ofText?

def TriggerType.decode? (d : Document) : Option TriggerType := d.choice?.bind TriggerType.ofText?

def StepStatus.decode? (d : Document) : Option StepStatus := d.choice?.bind StepStatus.ofText?

def Run.toJson (run : Run) : Json :=
  .record ([("id", .string run.id), ("flowId", .string run.flowId),
      ("status", .string run.status.text), ("triggerType", .string run.triggerType.text),
      ("startedAt", run.startedAt.toJson)] ++
    Json.member? "finishedAt" (run.finishedAt.map Timestamp.toJson) ++
    Json.member? "error" (run.error.map .string) ++
    [("testMode", .bool run.testMode)])

def Run.decode? (d : Document) : Option Run := do
  let [id, flowId, status, triggerType, startedAt, finishedAt, error, testMode] ← d.fields?
    [["id"], ["flowId"], ["status"], ["triggerType"], ["startedAt"], ["finishedAt"], ["error"],
      ["testMode"]] | none
  let id ← Document.required Document.text? id
  let flowId ← Document.required Document.text? flowId
  let status ← Document.required RunStatus.decode? status
  let triggerType ← Document.required TriggerType.decode? triggerType
  let startedAt ← Document.required Timestamp.decode? startedAt
  let finishedAt ← Document.optional Timestamp.decode? finishedAt
  let error ← Document.optional Document.text? error
  let testMode ← Document.required Document.bool? testMode
  some { id, flowId, status, triggerType, startedAt, finishedAt, error, testMode }

def RunStep.toJson (step : RunStep) : Json :=
  .record ([("id", .string step.id), ("runId", .string step.runId),
      ("nodeId", .string step.nodeId), ("nodeType", .string step.nodeType),
      ("status", .string step.status.text), ("startedAt", step.startedAt.toJson)] ++
    Json.member? "finishedAt" (step.finishedAt.map Timestamp.toJson) ++
    Json.member? "input" step.input ++ Json.member? "output" step.output ++
    Json.member? "error" (step.error.map .string))

def RunStep.decode? (d : Document) : Option RunStep := do
  let [id, runId, nodeId, nodeType, status, startedAt, finishedAt, input, output, error] ←
    d.fields?
      [["id"], ["runId"], ["nodeId"], ["nodeType"], ["status"], ["startedAt"], ["finishedAt"],
        ["input"], ["output"], ["error"]] | none
  let id ← Document.required Document.text? id
  let runId ← Document.required Document.text? runId
  let nodeId ← Document.required Document.text? nodeId
  let nodeType ← Document.required Document.text? nodeType
  let status ← Document.required StepStatus.decode? status
  let startedAt ← Document.required Timestamp.decode? startedAt
  let finishedAt ← Document.optional Timestamp.decode? finishedAt
  let input ← Document.optional Document.value? input
  let output ← Document.optional Document.value? output
  let error ← Document.optional Document.text? error
  some { id, runId, nodeId, nodeType, status, startedAt, finishedAt, input, output, error }

end FlowEngine
